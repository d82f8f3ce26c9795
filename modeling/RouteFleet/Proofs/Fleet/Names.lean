import RouteFleet.Proofs.Fleet.Atomic
import RouteFleet.Proofs.Fleet.Edit
import RouteFleet.Proofs.Fleet.Migrate
import RouteFleet.Proofs.Fleet.Preserve
import RouteFleet.Proofs.Store.Reserved

/-! # Distinct names

No two routes that a fleet lists bear one name (`Fleet.names_run`). That is stored nowhere: it rests on
the scan of all identities before a new one is made. What an operation writes is a file that was there, or
one that is listed under no name, or one under a name that no listed route bears; so each write keeps the
names apart (`Store.NamesApart`). Only to move a legacy route is to write a second object of one name,
and there it matters that the first is removed.

Adding a route and giving one another name fail because of the name if and only if the route is valid
and some other bears the name (`Fleet.outcome_add_iff`, `Fleet.outcome_update_iff`).
-/

namespace RouteFleet

namespace Store

/-- Whether the names that a store lists are apart. -/
def HasNamesApart (s : Store) : Prop := ∃ entries, s.content = .ok entries ∧ NamesApart s.root entries

theorem HasNamesApart.of_content {s t : Store} (h : s.HasNamesApart) (hroot : t.root = s.root)
    (hcontent : t.content = s.content) : t.HasNamesApart := by
  obtain ⟨entries, hentries, hapart⟩ := h
  exact ⟨entries, hcontent.trans hentries, hroot ▸ hapart⟩

theorem hasNamesApart_iff {s : Store} {ids : List RouteId} (hlist : s.list = .ok ids) :
    s.HasNamesApart ↔ (ids.map RouteId.name).Nodup := by
  obtain ⟨entries, hentries⟩ := exists_entries_of_list hlist
  rw [nodup_names_iff hentries hlist]
  constructor
  · rintro ⟨entries', hentries', hapart⟩
    obtain rfl := Except.ok.inj (hentries.symm.trans hentries')
    exact hapart
  · exact fun hapart => ⟨entries, hentries, hapart⟩

/-- Writing keeps names apart if what is written does, also if that fails. -/
theorem HasNamesApart.write {s : Store} (h : s.HasNamesApart) {key : String} {bytes : ByteArray}
    (hinsert : ∀ entries, s.content = .ok entries → NamesApart s.root entries →
      NamesApart s.root (entries.insert (fileName key) (.file bytes))) :
    (s.write key bytes).2.HasNamesApart := by
  obtain ⟨entries, hentries, hapart⟩ := h
  rw [HasNamesApart, root_write]
  rcases s.content_write key bytes hentries with hrefused | ⟨-, hgranted⟩
  · exact ⟨entries, hrefused, hapart⟩
  · exact ⟨_, hgranted, hinsert entries hentries hapart⟩

end Store

namespace Fleet

open Store (NamesApart HasNamesApart IsListed)

/-! ## One route -/

section OneRoute

variable {s : Store} {current : RouteId} {name : String} {r : StoredRoute} {entries : Dict Entry}
variable {bytes : ByteArray} {made : Except StoreError Unit × Store} {moments : List Store}

/-- A route under a new identity keeps names apart, if no listed route bears the name. -/
theorem IsNew.namesApart {except : Option RouteId} {id : RouteId} (h : IsNew s name except id)
    (hentries : s.content = .ok entries) (hapart : NamesApart s.root entries)
    (hexcept : ∀ id', some id' = except → id'.name ≠ name) :
    NamesApart s.root (entries.insert id.fileName (.file bytes)) := by
  obtain ⟨ids, hids, hunused⟩ := h.unused
  refine hapart.insert_new ((Store.isThere_eq_false_iff hentries).mp h.isFree).1.isPlainKey ?_
  intro file id' hlisted hname
  rw [h.name_eq] at hname
  have hmem := (Store.mem_list_iff hentries hids).mpr ⟨file, hlisted⟩
  exact hexcept id' (hunused id' hmem hname) hname

/-- A route that is planned keeps names apart when it is written. -/
theorem IsPlanned.namesApart (h : IsPlanned s current name r) (hentries : s.content = .ok entries)
    (hapart : NamesApart s.root entries) :
    NamesApart s.root (entries.insert r.id.fileName (.file bytes)) := by
  rcases h.next with ⟨hid, -⟩ | ⟨hname, hnew⟩
  · obtain ⟨entries', old, hentries', hold, -⟩ := h.exists_entries
    obtain rfl := Except.ok.inj (hentries.symm.trans hentries')
    exact hapart.rewrite (hid ▸ hold)
  · refine hnew.namesApart hentries hapart fun id' hid' => ?_
    exact Option.some.inj hid' ▸ hname

theorem Goes.hasNamesApart (h : Goes s current r entries bytes made moments)
    (hroot : made.2.root = s.root) (hentries : s.content = .ok entries)
    (hapart : NamesApart s.root entries)
    (hinsert : NamesApart s.root (entries.insert r.id.fileName (.file bytes))) : made.2.HasNamesApart := by
  rw [HasNamesApart, hroot]
  cases h with
  | refused after h => exact ⟨entries, h.trans hentries, hapart⟩
  | inPlace after hid h => exact ⟨_, h, hinsert⟩
  | stuck mid after hid hmid hremove h => exact ⟨_, h.trans hmid, hinsert⟩
  | moved mid after hid hmid h => exact ⟨_, h, hinsert.erase _⟩

end OneRoute

theorem preserves_add (route : Route) : Preserves HasNamesApart (add route) := by
  intro fleet hapart
  rcases houtcome : outcome (add route) fleet with ⟨result, after⟩
  have hroot := root_add houtcome
  rw [add_eq] at houtcome
  rcases outcome_plan_cases (keeps_planAdd route) houtcome with
    ⟨e, -, hstore⟩ | ⟨r, mid, bytes, hplan, -, -, hstore⟩
  · exact hstore.symm ▸ hapart
  obtain ⟨entries, hentries, hnames⟩ := hapart
  rw [hstore] at hroot ⊢
  exact (goes_replacing hentries bytes fun hne => absurd rfl hne).hasNamesApart hroot hentries hnames
    ((isNew_planAdd hplan).namesApart hentries hnames fun _ hid => nomatch hid)

theorem preserves_update (route : Route) : Preserves HasNamesApart (update route) := by
  intro fleet hapart
  cases hid : route.id with
  | none =>
    rw [update, hid]
    exact hapart
  | some current =>
  rcases houtcome : outcome (update route) fleet with ⟨result, after⟩
  have hroot := root_update houtcome
  rw [update_eq hid] at houtcome
  rcases outcome_plan_cases (keeps_planUpdate route current) houtcome with
    ⟨e, -, hstore⟩ | ⟨r, mid, bytes, hplan, -, -, hstore⟩
  · exact hstore.symm ▸ hapart
  have hplanned := isPlanned_planUpdate hplan
  obtain ⟨entries, old, hentries, hold, -⟩ := hplanned.exists_entries
  obtain ⟨entries', hentries', hnames⟩ := hapart
  obtain rfl := Except.ok.inj (hentries.symm.trans hentries')
  rw [hstore] at hroot ⊢
  exact (goes_replacing hentries bytes fun _ => ⟨old, hold⟩).hasNamesApart hroot hentries hnames
    (hplanned.namesApart hentries hnames)

theorem preserves_delete (id : RouteId) : Preserves HasNamesApart (delete id) := by
  intro fleet hapart
  rcases houtcome : outcome (delete id) fleet with ⟨result, after⟩
  have hroot := root_delete houtcome
  cases result with
  | error e => exact hapart.of_content hroot (isRemoved_delete houtcome)
  | ok done =>
    obtain ⟨entries, old, hentries, -, hafter⟩ := isRemoved_delete houtcome
    obtain ⟨entries', hentries', hnames⟩ := hapart
    obtain rfl := Except.ok.inj (hentries.symm.trans hentries')
    exact ⟨_, hafter, hroot ▸ hnames.erase _⟩

/-! ## All routes -/

/-- Where all routes lie in the folder that are edited, no file is new. -/
theorem hasNamesApart_editEach {change : Graph → Graph} {rs : List StoredRoute} {fleet : Fleet}
    {entries : Dict Entry} (hentries : fleet.store.content = .ok entries)
    (hrs : ∀ r ∈ rs, LiesIn fleet.store.root entries r) (hapart : NamesApart fleet.store.root entries) :
    (outcome (editEach change rs) fleet).2.store.HasNamesApart := by
  induction rs generalizing fleet entries with
  | nil => exact ⟨entries, hentries, hapart⟩
  | cons r rs ih =>
    rw [List.forall_mem_cons] at hrs
    rw [editEach]
    split
    · exact ih hentries hrs.2 hapart
    rcases outcome_save_cases r.id.text (change r.graph) fleet with ⟨cause, -, hsave⟩ | ⟨bytes, -, hsave⟩
    · rw [outcome_bind_error hsave]
      exact ⟨entries, hentries, hapart⟩
    rcases fleet.store.write_cases r.id.text bytes with ⟨cause, hwrite⟩ | ⟨entries', hentries', hwrite⟩
    · rw [hwrite] at hsave
      rw [outcome_bind_error hsave]
      exact ⟨entries, hentries, hapart⟩
    obtain rfl := Except.ok.inj (hentries.symm.trans hentries')
    rw [hwrite] at hsave
    rw [outcome_bind_ok hsave, outcome_bind_pure]
    obtain ⟨-, old, hold⟩ := hrs.1
    have hlie : ∀ r' ∈ rs, LiesIn fleet.store.root
        (entries.insert (Store.fileName r.id.text) (.file bytes)) r' :=
      fun r' hr' => (hrs.2 r' hr').insert _ bytes
    exact ih (Store.content_withEntries _ _) hlie (hapart.rewrite hold)

theorem preserves_edit (change : Graph → Graph) : Preserves HasNamesApart (edit change) := by
  rintro fleet ⟨entries, hentries, hapart⟩
  rcases outcome_list_cases (Store.list_eq hentries) with ⟨e, hlist⟩ | ⟨rs, hlist, hloaded⟩
  · rw [edit, outcome_bind_error hlist]
    exact ⟨entries, hentries, hapart⟩
  · rw [edit, outcome_bind_ok hlist]
    refine hasNamesApart_editEach hentries (fun r hr => ?_) hapart
    exact .of_isStored hentries (hloaded.stored r hr)

theorem preserves_setCertResolver (name : String) : Preserves HasNamesApart (setCertResolver name) :=
  (preserves_edit _).bind fun _ _ hapart => hapart

/-- A new identity that is listed has no name of a file that was listed and is left, since its old
identity was listed too. -/
theorem Moved.name_ne {root : String} {before after : Dict Entry} {moves : List (StoredRoute × RouteId)}
    (h : Moved root before after moves) (hapart : NamesApart root before) {m : StoredRoute × RouteId}
    (hm : m ∈ moves) (hlie : LiesIn root before m.1) (hlisted : IsListed root after m.2.fileName m.2)
    {file : String} {id : RouteId} (hid : IsListed root before file id) (hfile : file ≠ m.1.id.fileName) :
    m.2.name ≠ id.name := by
  intro hname
  obtain ⟨⟨tag, hnew⟩, -, hsame⟩ := h.named m hm
  obtain ⟨hreach, old, hold⟩ := hlie
  obtain ⟨bytes, -, hroute⟩ := hlisted
  have hlead : Text.beginsWith Store.sharedLead m.1.id.fileName = false := by
    rw [RouteId.beginsWith_fileName, Bool.eq_false_iff]
    intro hreserved
    have hfree := Store.beginsWith_of_routeOf? hroute
    rw [RouteId.beginsWith_fileName, hnew, RouteId.isReserved_ofTag.mpr (.inr hreserved)] at hfree
    cases hfree
  have hbefore : IsListed root before m.1.id.fileName m.1.id :=
    ⟨old, hold, Store.routeOf?_fileName hreach (Store.isLost_of_routeOf? hroute) hlead old⟩
  refine hfile (hapart _ _ _ _ hid hbefore ?_)
  rw [← hname, hsame, (h.legacy m hm).2]

/-- Names stay apart when legacy routes are moved. -/
theorem Moved.namesApart {root : String} {before after : Dict Entry} {moves : List (StoredRoute × RouteId)}
    (h : Moved root before after moves) (hapart : NamesApart root before)
    (hlie : ∀ m ∈ moves, LiesIn root before m.1) (hids : (moves.map (·.1.id)).Nodup) :
    NamesApart root after := by
  intro file file' id id' hid hid' hname
  rcases h.isListed hid with ⟨m, hm, rfl, rfl⟩ | ⟨hbefore, hleft⟩
  · rcases h.isListed hid' with ⟨m', hm', rfl, rfl⟩ | ⟨hbefore', hleft'⟩
    · rw [(h.named m hm).2.2, (h.named m' hm').2.2] at hname
      obtain rfl := List.inj_on_of_nodup_map hids hm hm' (congrArg RouteId.mk hname)
      rfl
    · exact absurd hname (h.name_ne hapart hm (hlie m hm) hid hbefore' (hleft' m hm))
  · rcases h.isListed hid' with ⟨m', hm', rfl, rfl⟩ | ⟨hbefore', hleft'⟩
    · exact absurd hname.symm (h.name_ne hapart hm' (hlie m' hm') hid' hbefore (hleft m' hm'))
    · exact hapart file file' id id' hbefore hbefore' hname

theorem hasNamesApart_migrate {fleet : Fleet} (hapart : fleet.store.HasNamesApart)
    (hremovals : ∀ k, fleet.store.refusals.removals k = false) :
    (outcome migrate fleet).2.store.HasNamesApart := by
  obtain ⟨entries, hentries, hnames⟩ := hapart
  have hids := Store.list_eq hentries
  rcases outcome_list_cases hids with ⟨e, hlist⟩ | ⟨rs, hlist, hloaded⟩
  · rw [migrate, outcome_bind_error hlist]
    exact ⟨entries, hentries, hnames⟩
  rw [outcome_migrate_of_list hlist]
  have hlegacy := hloaded.legacy hentries
  have hnodup := hloaded.nodup_legacy (((Store.nodup_names_iff hentries hids).mpr hnames).of_map _)
  rcases houtcome : outcome (moveEach (rs.filter (·.id.isLegacy))) fleet with ⟨result, after⟩
  obtain ⟨entries', moves, rest, hafter, hroot, hsplit, hmoved, -⟩ :=
    movesEnd_moveEach hentries hremovals hlegacy hnodup houtcome
  refine ⟨entries', hafter, hroot ▸ hmoved.namesApart hnames (fun m hm => ?_) ?_⟩
  · exact (hlegacy m.1 (hsplit ▸ List.mem_append_left _ (List.mem_map_of_mem hm))).1
  · rw [hsplit, List.map_append, List.map_map] at hnodup
    exact (List.nodup_append.mp hnodup).1

/-! ## Names that are taken -/

variable {α β : Type}

/-- Whether an operation never fails because a name is taken. -/
def NeverTaken (x : FleetM α) : Prop :=
  ∀ fleet name, (outcome x fleet).1 ≠ .error (.alreadyExists name)

namespace NeverTaken

theorem pure (a : α) : NeverTaken (pure a) := fun _ _ h => nomatch h

theorem bind {x : FleetM α} {f : α → FleetM β} (hx : NeverTaken x) (hf : ∀ a, NeverTaken (f a)) :
    NeverTaken (x >>= f) := by
  intro fleet name h
  rcases houtcome : outcome (x >>= f) fleet with ⟨result, after⟩
  rw [houtcome] at h
  rcases outcome_bind_cases houtcome with ⟨e, hfirst, rfl⟩ | ⟨a, mid, -, hnext⟩
  · obtain rfl := Except.error.inj h
    exact hx fleet name (congrArg Prod.fst hfirst)
  · refine hf a mid name ?_
    rw [hnext]
    exact h

theorem look (f : Store → Except StoreError α) : NeverTaken (look f) := by
  intro fleet name h
  rw [outcome_look] at h
  cases hf : f fleet.store with
  | error e =>
    rw [hf] at h
    exact nomatch h
  | ok a =>
    rw [hf] at h
    exact nomatch h

theorem act (f : Store → Except StoreError α × Store) : NeverTaken (act f) := by
  intro fleet name h
  rw [outcome_act] at h
  rcases hf : f fleet.store with ⟨e | a, s⟩
  · rw [hf] at h
    exact nomatch h
  · rw [hf] at h
    exact nomatch h

theorem freshId (name : String) : NeverTaken (freshId name) := by
  intro fleet name' h
  rw [outcome_freshId] at h
  rcases firstFree_error h with ⟨tag, -, cause, -, heq⟩ | ⟨-, heq⟩
  · exact nomatch heq
  · exact nomatch heq

theorem compile (id : RouteId) (route : Route) (previous : Option Graph) :
    NeverTaken (compile id route previous) := by
  intro fleet name h
  rw [outcome_compile] at h
  cases hg : fleet.compiler.recompile id route previous with
  | error e =>
    rw [hg] at h
    exact nomatch h
  | ok g =>
    rw [hg] at h
    exact nomatch h

theorem save (key : String) (g : Graph) : NeverTaken (save key g) :=
  (look _).bind fun _ => act _

/-- Nothing fails for the name once there is an identity. -/
theorem stored (current : RouteId) (route : Route) (previous : Option Graph) (id : RouteId) :
    NeverTaken (do
      let graph ← Fleet.compile id route previous
      Fleet.save id.text graph
      if id ≠ current then discard (remove current)
      return { id := id, graph := graph : StoredRoute }) := by
  refine (compile id route previous).bind fun g => (save id.text g).bind fun _ => ?_
  split
  · exact ((act _).bind fun _ => pure _).bind fun _ => pure _
  · exact pure _

end NeverTaken

section Taken

variable {fleet : Fleet} {ids : List RouteId}

/-- What begins with the check of a name fails for the name if and only if it is taken. -/
theorem outcome_checkName_bind_iff (hlist : fleet.store.list = .ok ids) {name : String}
    {except : Option RouteId} {rest : Unit → FleetM α} (hrest : NeverTaken (rest ())) (name' : String) :
    (outcome (checkName name except >>= rest) fleet).1 = .error (.alreadyExists name') ↔
      name' = name ∧ ∃ id ∈ ids, id.name = name ∧ some id ≠ except := by
  rcases outcome_checkName_cases name except fleet with ⟨cause, hfail, -⟩ | ⟨ids', hids, htaken⟩
  · exact nomatch hfail.symm.trans hlist
  obtain rfl := Except.ok.inj (hids.symm.trans hlist)
  rcases htaken with ⟨htaken, hcheck⟩ | ⟨hfree, hcheck⟩
  · rw [outcome_bind_error hcheck]
    constructor
    · rintro ⟨⟩
      exact ⟨rfl, htaken⟩
    · rintro ⟨rfl, -⟩
      rfl
  · rw [outcome_bind_ok hcheck]
    refine ⟨fun h => absurd h (hrest fleet name'), ?_⟩
    rintro ⟨-, id, hid, hname, hne⟩
    exact absurd (hfree id hid hname) hne

/-- A route is not added for its name if and only if it is valid and a listed one bears the name. -/
theorem outcome_add_iff (hlist : fleet.store.list = .ok ids) (route : Route) (name : String) :
    (outcome (add route) fleet).1 = .error (.alreadyExists name) ↔
      name = route.name ∧ route.validate.isValid = true ∧ ∃ id ∈ ids, id.name = route.name := by
  have hcheck := outcome_check route fleet
  by_cases hvalid : route.validate.isValid = true
  · rw [if_pos hvalid] at hcheck
    rw [add, outcome_bind_ok hcheck, outcome_checkName_bind_iff hlist]
    · simp [hvalid]
    · refine (NeverTaken.freshId _).bind fun id => (NeverTaken.compile id route none).bind fun g => ?_
      exact (NeverTaken.save _ _).bind fun _ => NeverTaken.pure _
  · rw [if_neg hvalid] at hcheck
    rw [add, outcome_bind_error hcheck]
    exact ⟨fun h => (by cases h), fun h => absurd h.2.1 hvalid⟩

/-- What begins with the next identity of a route fails for the name if and only if that is another one
and taken. -/
theorem outcome_nextId_bind_iff (hlist : fleet.store.list = .ok ids) {current : RouteId} {name : String}
    {rest : RouteId → FleetM α} (hrest : ∀ id, NeverTaken (rest id)) (name' : String) :
    (outcome (nextId current name >>= rest) fleet).1 = .error (.alreadyExists name') ↔
      name' = name ∧ current.name ≠ name ∧ ∃ id ∈ ids, id ≠ current ∧ id.name = name := by
  by_cases hname : current.name = name
  · rw [nextId, if_pos hname, pure_bind]
    exact ⟨fun h => absurd h (hrest current fleet name'), fun h => absurd hname h.2.1⟩
  rw [nextId, if_neg hname, bind_assoc,
    outcome_checkName_bind_iff hlist ((NeverTaken.freshId _).bind hrest)]
  constructor
  · rintro ⟨rfl, id, hmem, hsame, hne⟩
    exact ⟨rfl, hname, id, hmem, fun heq => hne (congrArg some heq), hsame⟩
  · rintro ⟨rfl, -, id, hmem, hne, hsame⟩
    exact ⟨rfl, id, hmem, hsame, fun heq => hne (Option.some.inj heq)⟩

/-- A route is not replaced for its name if and only if it is valid, what it is to replace is stored
under another name, and another listed route bears the name. -/
theorem outcome_update_iff (hlist : fleet.store.list = .ok ids) (route : Route) (name : String) :
    (outcome (update route) fleet).1 = .error (.alreadyExists name) ↔
      name = route.name ∧ route.validate.isValid = true ∧ ∃ current, route.id = some current ∧
        current.name ≠ route.name ∧ (∃ g, IsStored fleet.store { id := current, graph := g }) ∧
        ∃ id ∈ ids, id ≠ current ∧ id.name = route.name := by
  cases hid : route.id with
  | none =>
    rw [update, hid]
    refine ⟨fun h => (by cases h), ?_⟩
    rintro ⟨-, -, current, hcurrent, -⟩
    cases hcurrent
  | some current =>
  have hcheck := outcome_check route fleet
  rw [update, hid]
  by_cases hvalid : route.validate.isValid = true
  swap
  · rw [if_neg hvalid] at hcheck
    rw [outcome_bind_error hcheck]
    exact ⟨fun h => (by cases h), fun h => absurd h.2.1 hvalid⟩
  rw [if_pos hvalid] at hcheck
  rw [outcome_bind_ok hcheck]
  by_cases hsome : ∃ g, IsStored fleet.store { id := current, graph := g }
  swap
  · -- Where nothing is stored the name is not looked at.
    refine ⟨fun h => ?_, ?_⟩
    swap
    · rintro ⟨-, -, _, hcurrent, -, hstored, -⟩
      exact absurd (Option.some.inj hcurrent ▸ hstored) hsome
    rcases outcome_load_cases current fleet with ⟨e, hload⟩ | ⟨hload, -⟩ | ⟨g, -, hstored⟩
    · rw [outcome_bind_error hload] at h
      cases h
    · rw [outcome_bind_ok hload] at h
      cases h
    · exact absurd ⟨g, hstored⟩ hsome
  obtain ⟨previous, hstored⟩ := hsome
  rw [outcome_bind_ok (outcome_load_of_isStored hstored)]
  refine (outcome_nextId_bind_iff hlist (NeverTaken.stored current route (some previous)) name).trans ?_
  constructor
  · rintro ⟨rfl, hname, htaken⟩
    exact ⟨rfl, hvalid, current, rfl, hname, ⟨previous, hstored⟩, htaken⟩
  · rintro ⟨rfl, -, current', hcurrent, hname, -, htaken⟩
    obtain rfl := Option.some.inj hcurrent
    exact ⟨rfl, hname, htaken⟩

end Taken

/-! ## Runs -/

/-- Writing the shared middlewares lists no route. -/
theorem preserves_writeShared (shared : SharedMiddlewares) :
    Preserves HasNamesApart (writeShared shared) := by
  have hlead : Text.beginsWith Store.sharedLead (Store.fileName SharedMiddlewares.objectKey) = true := by
    decide
  refine (Preserves.of_keeps (Keeps.look _)).bind fun bytes => Preserves.act fun s hapart => ?_
  refine hapart.write fun entries _ hnames => hnames.insert_unlisted ?_
  rw [Store.routeOf?, hlead, Bool.not_true, Bool.and_false]
  rfl

/-- Names stay apart in each operation, if no removal is refused. -/
theorem preserves_perform (operation : Operation) :
    Preserves (fun s => s.HasNamesApart ∧ ∀ k, s.refusals.removals k = false) (perform operation) := by
  rintro fleet ⟨hapart, hremovals⟩
  refine ⟨?_, robust_removals.perform operation fleet hremovals⟩
  cases operation with
  | add route => exact (preserves_add route).discard fleet hapart
  | update route => exact (preserves_update route).discard fleet hapart
  | delete id => exact preserves_delete id fleet hapart
  | setCertResolver name => exact (preserves_setCertResolver name).discard fleet hapart
  | setForwardAuth change => exact (preserves_edit _).discard fleet hapart
  | migrate =>
    have hlast : outcome (discard migrate) fleet = _ := outcome_bind_pure migrate (fun _ => ()) fleet
    rw [perform, hlast]
    exact hasNamesApart_migrate hapart hremovals
  | writeShared shared => exact preserves_writeShared shared fleet hapart

/-- From each fleet whose listed names are distinct, after any operations, whatever chance brings and the
system refuses to write, the listed names are distinct. Adding a route and giving one another name fail
because of the name if and only if the route is valid and some other listed one bears the name. -/
theorem names_run {fleet : Fleet} {ids : List RouteId} (hlist : fleet.store.list = .ok ids)
    (hnames : (ids.map RouteId.name).Nodup) (hremovals : ∀ k, fleet.store.refusals.removals k = false)
    (operations : List Operation) :
    let last := run operations fleet
    ∃ ids', last.store.list = .ok ids' ∧ (ids'.map RouteId.name).Nodup ∧
      (∀ route name, (outcome (add route) last).1 = .error (.alreadyExists name) ↔
        name = route.name ∧ route.validate.isValid = true ∧ ∃ id ∈ ids', id.name = route.name) ∧
      ∀ route name, (outcome (update route) last).1 = .error (.alreadyExists name) ↔
        name = route.name ∧ route.validate.isValid = true ∧ ∃ current, route.id = some current ∧
          current.name ≠ route.name ∧ (∃ g, IsStored last.store { id := current, graph := g }) ∧
          ∃ id ∈ ids', id ≠ current ∧ id.name = route.name := by
  intro last
  have hapart := (Store.hasNamesApart_iff hlist).mpr hnames
  obtain ⟨hlast, -⟩ := preserves_run preserves_perform operations ⟨hapart, hremovals⟩
  obtain ⟨entries, hentries, -⟩ := id hlast
  have hlist' := Store.list_eq hentries
  exact ⟨_, hlist', (Store.hasNamesApart_iff hlist').mp hlast, outcome_add_iff hlist',
    outcome_update_iff hlist'⟩

/-- A fleet of a legacy route and one with a tag. -/
def blogAndWiki : Fleet where
  store :=
    { root := "conf"
      content := .ok (Dict.ofList
        [("blog.yaml", .file "".toUTF8), ("wiki_1a2b3c4d.yaml", .file "".toUTF8)]) }
  tags := [Tag.ofNat 1]
  compiler := { certResolver := "le", hasher := Hasher.marking, hostIp := none }

/-- A route that bears the name of the legacy one. -/
def blogAgain : Route where
  name := "blog"
  domain := "blog.example.com"
  backend := { url := "http://10.0.0.5:80" }

/-- Once the legacy route is moved, its name is still taken. -/
theorem names_run_blogAndWiki : blogAndWiki.store.list = .ok [⟨"blog"⟩, ⟨"wiki_1a2b3c4d"⟩] ∧
    (run [.migrate] blogAndWiki).store.list = .ok [⟨"blog_00000001"⟩, ⟨"wiki_1a2b3c4d"⟩] ∧
    (outcome (add blogAgain) (run [.migrate] blogAndWiki)).1 = .error (.alreadyExists "blog") := by
  have hlist : blogAndWiki.store.list = .ok [⟨"blog"⟩, ⟨"wiki_1a2b3c4d"⟩] := by decide +kernel
  have hlast : (run [.migrate] blogAndWiki).store.list =
      .ok [⟨"blog_00000001"⟩, ⟨"wiki_1a2b3c4d"⟩] := by decide +kernel
  refine ⟨hlist, hlast, ?_⟩
  have hvalid : blogAgain.validate.isValid = true := by decide +kernel
  obtain ⟨ids', hlist', -, hadd, -⟩ :=
    names_run hlist (by decide +kernel) (fun _ => rfl) [.migrate]
  obtain rfl := Except.ok.inj (hlist'.symm.trans hlast)
  exact (hadd _ _).mpr ⟨rfl, hvalid, ⟨"blog_00000001"⟩, List.mem_cons_self, by decide +kernel⟩

end Fleet

end RouteFleet
