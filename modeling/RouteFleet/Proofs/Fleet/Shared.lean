import RouteFleet.Proofs.Fleet.Visible

/-! # The shared object under operations on routes

Operations on routes leave the shared object alone if they are not told to change it: it is never listed,
and no new identity is its own (`Fleet.holdsAt_perform`). But nothing refuses its key. To remove it like a
route is to lose it, and to replace it like a route is to lose it as well, since a route has another name;
if that fails, it is as it was (`Fleet.holdsAt_perform_target`).

Main statement: `Fleet.read_shared_run`, after any operations the shared object is byte for byte what it
was, unless one of them was told to change it and succeeded; then it is gone.
-/

namespace RouteFleet

/-- The identity that the shared object would have if it were a route. -/
def RouteId.shared : RouteId := ⟨SharedMiddlewares.objectKey⟩

/-- No identity that is made from a name and a tag is the one of the shared object: what follows its last
mark is not a tag. -/
theorem RouteId.ofTag_ne_shared (name : String) (tag : Tag) : ofTag name tag ≠ shared := by
  intro heq
  have hsplit := splitLast_of_isTag name tag.isTag_text
  have hshared : Text.splitLast '_' SharedMiddlewares.objectKey = some ("sys", "middlewares") := by decide
  have htext : name ++ "_" ++ tag.text = SharedMiddlewares.objectKey := congrArg text heq
  rw [htext, hshared] at hsplit
  have htag := tag.isTag_text
  rw [← (Prod.mk.inj (Option.some.inj hsplit)).2] at htag
  exact absurd htag (by decide)

namespace Store

/-- Whether a folder is at hand in which something lies under an identity, or nothing. -/
def HoldsAt (s : Store) (id : RouteId) (e : Option Entry) : Prop :=
  ∃ entries, s.content = .ok entries ∧ entries.get? id.fileName = e

namespace HoldsAt

variable {s t : Store} {id : RouteId} {e : Option Entry}

theorem of_content (h : s.HoldsAt id e) (hcontent : t.content = s.content) : t.HoldsAt id e := by
  obtain ⟨entries, hentries, he⟩ := h
  exact ⟨entries, hcontent.trans hentries, he⟩

/-- What is written elsewhere does not matter. -/
theorem write (h : s.HoldsAt id e) {id' : RouteId} (hne : id' ≠ id) (bytes : ByteArray) :
    (s.write id'.text bytes).2.HoldsAt id e := by
  obtain ⟨entries, hentries, he⟩ := h
  have hfile : id.fileName ≠ fileName id'.text := fun hfile => hne (RouteId.fileName_inj hfile).symm
  rcases s.content_write id'.text bytes hentries with hrefused | ⟨-, hgranted⟩
  · exact ⟨entries, hrefused, he⟩
  · exact ⟨_, hgranted, by rw [Dict.get?_insert, if_neg hfile, he]⟩

/-- What is removed elsewhere does not matter. -/
theorem remove (h : s.HoldsAt id e) {id' : RouteId} (hne : id' ≠ id) :
    (s.remove id'.text).2.HoldsAt id e := by
  obtain ⟨entries, hentries, he⟩ := h
  have hfile : id.fileName ≠ fileName id'.text := fun hfile => hne (RouteId.fileName_inj hfile).symm
  rcases s.content_remove id'.text hentries with hkept | hgone
  · exact ⟨entries, hkept, he⟩
  · exact ⟨_, hgone, by rw [Dict.get?_erase, if_neg hfile, he]⟩

end HoldsAt

end Store

namespace Fleet

/-! ## One operation -/

/-- Neither what is listed nor what is new is the shared object. -/
theorem guards_holdsAt (e : Option Entry) :
    Guards (fun s => s.HasPlainNames ∧ s.HoldsAt RouteId.shared e) fun id => id ≠ RouteId.shared where
  write _ id bytes hid h := ⟨h.1.write id.text bytes, h.2.write hid bytes⟩
  remove _ id hid h := ⟨h.1.remove id.text, h.2.remove hid⟩
  listed _ ids h hlist id hid := by
    rintro rfl
    exact Store.notMem_list h.1 hlist RouteId.isReserved_objectKey hid
  made name tag := RouteId.ofTag_ne_shared name tag

section Perform

variable {fleet : Fleet} {operation : Operation} {e : Option Entry}

/-- An operation that is not told to change the shared object leaves it alone. -/
theorem holdsAt_perform (hplain : fleet.store.HasPlainNames) (h : fleet.store.HoldsAt RouteId.shared e)
    (htarget : operation.target? ≠ some RouteId.shared) :
    (outcome (perform operation) fleet).2.store.HoldsAt RouteId.shared e := by
  refine ((guards_holdsAt e).perform operation ?_ fleet ⟨hplain, h⟩).2
  rintro id hid rfl
  exact htarget hid

/-- To delete the shared object takes it away, or fails and leaves it as it was. -/
theorem holdsAt_delete {result : Except FleetError Unit} {after : Fleet}
    (h : fleet.store.HoldsAt RouteId.shared e)
    (houtcome : outcome (delete RouteId.shared) fleet = (result, after)) :
    (result = .ok () → after.store.HoldsAt RouteId.shared none) ∧
      (result ≠ .ok () → after.store.HoldsAt RouteId.shared e) := by
  cases result with
  | error cause =>
    refine ⟨fun hok => ?_, fun _ => h.of_content (isRemoved_delete houtcome)⟩
    cases hok
  | ok done =>
    obtain ⟨entries, old, -, -, hafter⟩ := isRemoved_delete houtcome
    exact ⟨fun _ => ⟨_, hafter, by rw [Dict.get?_erase, if_pos rfl]⟩, fun hnot => absurd rfl hnot⟩

/-- To replace the shared object by a route takes it away, since a route never has its name, or fails and
leaves it as it was. -/
theorem holdsAt_update {route : Route} (htarget : route.id = some RouteId.shared)
    {result : Except FleetError StoredRoute} {after : Fleet} (h : fleet.store.HoldsAt RouteId.shared e)
    (houtcome : outcome (update route) fleet = (result, after)) :
    (∀ r, result = .ok r → after.store.HoldsAt RouteId.shared none) ∧
      ∀ cause, result = .error cause → after.store.HoldsAt RouteId.shared e := by
  constructor
  · rintro r rfl
    obtain ⟨entries, old, bytes, -, -, -, hsame, -, hafter⟩ := (isReplaced_update htarget houtcome).1
    have hfiled := (maintains_update_isFiled _ route fleet rfl).2 r (congrArg Prod.fst houtcome)
    have hid : r.id ≠ RouteId.shared := by
      intro hid
      have hname := hfiled.isName
      rw [← hsame.mp hid, RouteId.shared, isName_name_objectKey] at hname
      cases hname
    rw [if_neg hid] at hafter
    exact ⟨_, hafter, by rw [Dict.get?_erase, if_pos rfl]⟩
  · rintro cause rfl
    rcases (isReplaced_update htarget houtcome).1 with
      hsame | ⟨entries, r, bytes, mid, cause', hentries, hid, -, -, hmid, -, -, hafter⟩
    · exact h.of_content hsame
    · -- Only the removal failed, and the new object lies elsewhere.
      obtain ⟨entries', hentries', he⟩ := h
      obtain rfl := Except.ok.inj (hentries.symm.trans hentries')
      refine ⟨_, hafter.trans hmid, ?_⟩
      rw [Dict.get?_insert, if_neg fun hfile => hid (RouteId.fileName_inj hfile).symm, he]

/-- What is done to the shared object as to a route takes it away, or fails and leaves it as it was. -/
theorem holdsAt_perform_target (h : fleet.store.HoldsAt RouteId.shared e)
    (hshared : ∀ shared, operation ≠ .writeShared shared)
    (htarget : operation.target? = some RouteId.shared) :
    ((outcome (perform operation) fleet).1 = .ok () →
      (outcome (perform operation) fleet).2.store.HoldsAt RouteId.shared none) ∧
    ((outcome (perform operation) fleet).1 ≠ .ok () →
      (outcome (perform operation) fleet).2.store.HoldsAt RouteId.shared e) := by
  cases operation with
  | add route => cases htarget
  | setCertResolver name => cases htarget
  | setForwardAuth change => cases htarget
  | migrate => cases htarget
  | writeShared shared => exact absurd rfl (hshared shared)
  | delete id =>
    obtain rfl : id = RouteId.shared := Option.some.inj htarget
    exact holdsAt_delete h rfl
  | update route =>
    have hlast : outcome (perform (.update route)) fleet =
        ((outcome (update route) fleet).1.map fun _ => (), (outcome (update route) fleet).2) :=
      outcome_bind_pure (update route) (fun _ => ()) fleet
    rw [hlast]
    obtain ⟨hreplaced, hfailed⟩ := holdsAt_update htarget h (rfl : outcome (update route) fleet = _)
    cases hresult : (outcome (update route) fleet).1 with
    | error cause =>
      refine ⟨fun hok => ?_, fun _ => hfailed cause hresult⟩
      cases hok
    | ok r => exact ⟨fun _ => hreplaced r hresult, fun hnot => absurd rfl hnot⟩

end Perform

/-! ## Runs -/

/-- Whether one of some operations is told to change the shared object and succeeds. -/
def TakesShared (operations : List Operation) (fleet : Fleet) : Prop :=
  ∃ before operation after, operations = before ++ operation :: after ∧
    operation.target? = some RouteId.shared ∧
    (outcome (perform operation) (run before fleet)).1 = .ok ()

theorem takesShared_cons {operation : Operation} {operations : List Operation} {fleet : Fleet} :
    TakesShared (operation :: operations) fleet ↔
      (operation.target? = some RouteId.shared ∧ (outcome (perform operation) fleet).1 = .ok ()) ∨
        TakesShared operations (outcome (perform operation) fleet).2 := by
  constructor
  · rintro ⟨before, taking, after, hsplit, htarget, hok⟩
    cases before with
    | nil =>
      obtain ⟨rfl, -⟩ := List.cons.inj hsplit
      exact .inl ⟨htarget, hok⟩
    | cons first before =>
      obtain ⟨rfl, hrest⟩ := List.cons.inj hsplit
      exact .inr ⟨before, taking, after, hrest, htarget, hok⟩
  · rintro (⟨htarget, hok⟩ | ⟨before, taking, after, rfl, htarget, hok⟩)
    · exact ⟨[], operation, operations, rfl, htarget, hok⟩
    · exact ⟨operation :: before, taking, after, rfl, htarget, hok⟩

section Run

variable {fleet : Fleet} {operations : List Operation} {e : Option Entry}

/-- What lies under the key of the shared object after some operations: nothing, once one of them was
told to change it and succeeded, and until then what lay there. -/
theorem holdsAt_run (hplain : fleet.store.HasPlainNames) (h : fleet.store.HoldsAt RouteId.shared e)
    (hshared : ∀ shared, .writeShared shared ∉ operations) :
    (¬ TakesShared operations fleet → (run operations fleet).store.HoldsAt RouteId.shared e) ∧
      (TakesShared operations fleet → (run operations fleet).store.HoldsAt RouteId.shared none) := by
  induction operations generalizing fleet e with
  | nil =>
    refine ⟨fun _ => h, ?_⟩
    rintro ⟨before, operation, after, hsplit, -⟩
    exact absurd hsplit (List.append_ne_nil_of_right_ne_nil _ (List.cons_ne_nil _ _)).symm
  | cons operation operations ih =>
    have hfirst : ∀ shared, operation ≠ .writeShared shared := fun shared heq =>
      hshared shared (heq ▸ List.mem_cons_self)
    have hrest : ∀ shared, .writeShared shared ∉ operations := fun shared hmem =>
      hshared shared (List.mem_cons_of_mem _ hmem)
    have hplain' := robust_plainNames.perform operation fleet hplain
    rw [takesShared_cons]
    by_cases htarget : operation.target? = some RouteId.shared
    · obtain ⟨htaken, hfailed⟩ := holdsAt_perform_target h hfirst htarget
      by_cases hok : (outcome (perform operation) fleet).1 = .ok ()
      · -- What is gone stays gone, whether it is to be changed again or not.
        obtain ⟨hgone, hgone'⟩ := ih hplain' (htaken hok) hrest
        exact ⟨fun hnot => absurd (.inl ⟨htarget, hok⟩) hnot, fun _ => Classical.byCases hgone' hgone⟩
      · rw [or_iff_right fun htakes => hok htakes.2]
        exact ih hplain' (hfailed hok) hrest
    · rw [or_iff_right fun htakes => htarget htakes.1]
      exact ih hplain' (holdsAt_perform hplain h htarget) hrest

/-- After any operations on routes the shared object is byte for byte what it was, unless one of them was
told to change it and succeeded; then it is gone. -/
theorem read_shared_run {bytes : ByteArray} (hplain : fleet.store.HasPlainNames)
    (hread : fleet.store.read SharedMiddlewares.objectKey = .ok (some bytes))
    (hshared : ∀ shared, .writeShared shared ∉ operations) :
    (¬ TakesShared operations fleet →
      (run operations fleet).store.read SharedMiddlewares.objectKey = .ok (some bytes)) ∧
    (TakesShared operations fleet →
      (run operations fleet).store.read SharedMiddlewares.objectKey = .ok none) := by
  obtain ⟨entries, hentries⟩ := Store.exists_entries_of_read hread
  obtain ⟨hreach, hfile⟩ := (Store.read_eq_ok_iff hentries).mp hread
  obtain ⟨hkept, hgone⟩ := holdsAt_run hplain (e := some (.file bytes)) ⟨entries, hentries, hfile⟩ hshared
  rw [← root_run operations fleet] at hreach
  constructor
  · intro hnot
    obtain ⟨entries', hentries', hfile'⟩ := hkept hnot
    exact (Store.read_eq_ok_iff hentries').mpr ⟨hreach, hfile'⟩
  · intro htakes
    obtain ⟨entries', hentries', hnone⟩ := hgone htakes
    exact (Store.read_eq_none_iff hentries').mpr ⟨hreach, hnone⟩

end Run

/-- A fleet of nothing but the shared object. -/
def sharedOnly : Fleet where
  store :=
    { root := "conf"
      content := .ok (Dict.ofList [("sys_middlewares.yaml", .file "http: \x7b\x7d\n".toUTF8)]) }
  tags := []
  compiler := { certResolver := "le", hasher := Hasher.marking, hostIp := none }

/-- The shared object is removed like a route. -/
theorem read_shared_run_sharedOnly :
    sharedOnly.store.read SharedMiddlewares.objectKey = .ok (some "http: \x7b\x7d\n".toUTF8) ∧
    (run [.delete RouteId.shared] sharedOnly).store.read SharedMiddlewares.objectKey = .ok none := by
  have hread : sharedOnly.store.read SharedMiddlewares.objectKey =
      .ok (some "http: \x7b\x7d\n".toUTF8) := by rfl
  refine ⟨hread, ?_⟩
  have hplain : sharedOnly.store.HasPlainNames := by
    rintro _ ⟨⟩ file e he
    obtain ⟨rfl, -⟩ := Prod.mk.inj (List.mem_singleton.mp (Dict.mem_of_get?_ofList he))
    decide
  have hdone : (outcome (perform (.delete RouteId.shared)) sharedOnly).1.toOption = some () := by
    decide +kernel
  refine (@read_shared_run sharedOnly [.delete RouteId.shared] _ hplain hread ?_).2 ?_
  · intro shared hmem
    exact nomatch List.mem_singleton.mp hmem
  · refine ⟨[], .delete RouteId.shared, [], rfl, rfl, ?_⟩
    rcases houtcome : (outcome (perform (.delete RouteId.shared)) (run [] sharedOnly)).1 with e | done
    · rw [show (outcome (perform (.delete RouteId.shared)) sharedOnly).1 = .error e from houtcome] at hdone
      exact nomatch hdone
    · rfl

end Fleet

end RouteFleet
