import RouteFleet.Proofs.Fleet.Outcome
import RouteFleet.Proofs.Route.Valid
import RouteFleet.Proofs.Store.Listing

/-! # Operations on one route

Adding, replacing and removing a route do all that they should or nothing (`Fleet.allOrNothing`): an
operation that fails leaves each object as it was, and one that succeeds changes the one object and no
other. There is one exception. To replace a route under another name is to write the new object and
then to remove the old one; if only the removal fails, the new object is there beside the old one.

First it is planned what to store, and nothing is changed by that (`Fleet.IsPlanned`). Then the changes
follow one another (`Fleet.replacing`), and at each moment the old object is there or the new one
(`Fleet.HoldsEither`).
-/

namespace RouteFleet

namespace Fleet

/-! ## Plans -/

/-- What is to be stored for a new route. -/
def planAdd (route : Route) : FleetM StoredRoute := do
  check route
  checkName route.name none
  let id ← freshId route.name
  let graph ← compile id route none
  return { id := id, graph := graph }

/-- What is to be stored instead of the route under `current`. -/
def planUpdate (route : Route) (current : RouteId) : FleetM StoredRoute := do
  check route
  match ← load current with
  | none => throw (.notFound current)
  | some previous =>
    let id ← nextId current route.name
    let graph ← compile id route (some previous)
    return { id := id, graph := graph }

/-- Stores a route in the place of the one under `current`. -/
def replace (current : RouteId) (r : StoredRoute) : FleetM StoredRoute := do
  save r.id.text r.graph
  if r.id ≠ current then discard (remove current)
  return r

theorem add_eq (route : Route) : add route = planAdd route >>= fun r => replace r.id r := by
  simp [add, planAdd, replace]

theorem update_eq {route : Route} {current : RouteId} (h : route.id = some current) :
    update route = planUpdate route current >>= replace current := by
  rw [update, h]
  simp only [planUpdate, bind_assoc]
  refine bind_congr fun _ => bind_congr fun found => ?_
  cases found with
  | none => rfl
  | some previous =>
    simp only [bind_assoc, pure_bind]
    rfl

/-- Planning changes nothing. -/
theorem keeps_planAdd (route : Route) : Keeps Fleet.store (planAdd route) := by
  refine (keeps_check _ route).bind fun _ => (keeps_checkName _ _ _).bind fun _ => ?_
  refine (keeps_freshId _).bind fun id => (keeps_compile _ id route none).bind fun g => ?_
  exact Keeps.pure _

theorem keeps_planUpdate (route : Route) (current : RouteId) :
    Keeps Fleet.store (planUpdate route current) := by
  refine (keeps_check _ route).bind fun _ => (keeps_load _ current).bind fun found => ?_
  cases found with
  | none => exact Keeps.throw _
  | some previous =>
    refine (keeps_nextId current _).bind fun id => ?_
    exact (keeps_compile _ id route (some previous)).bind fun g => Keeps.pure _

/-- Whether an identity is new in a store and bears a name that no listed route bears, other than the
one that is excepted. -/
structure IsNew (s : Store) (name : String) (except : Option RouteId) (id : RouteId) : Prop where
  name_eq : id.name = name
  isFree : s.isThere id.text = .ok false
  unused : ∃ ids, s.list = .ok ids ∧ ∀ id' ∈ ids, id'.name = name → some id' = except

/-- Whether a route may be stored in the place of the one under `current`: that one is stored, and the
identity is the same if the name is, and else a new one. -/
structure IsPlanned (s : Store) (current : RouteId) (name : String) (r : StoredRoute) : Prop where
  old : ∃ g, IsStored s { id := current, graph := g }
  next : (r.id = current ∧ current.name = name) ∨
    (current.name ≠ name ∧ IsNew s name (some current) r.id)

theorem isNew_freshId {fleet mid after : Fleet} {route : Route} {except : Option RouteId} {id : RouteId}
    (hvalid : route.Valid)
    (hname : outcome (checkName route.name except) fleet = (.ok (), mid))
    (hid : outcome (freshId route.name) mid = (.ok id, after)) :
    IsNew fleet.store route.name except id := by
  obtain rfl := (keeps_checkName _ _ _).eq_of_outcome hname
  obtain ⟨tag, rfl, hfree⟩ := firstFree_ok (Prod.mk.inj hid).1
  refine ⟨RouteId.name_ofTag (RouteId.IsMade.name_ne_empty hvalid.name) tag, hfree, ?_⟩
  rcases outcome_checkName_cases route.name except mid with
    ⟨cause, -, h⟩ | ⟨ids, hids, ⟨-, h⟩ | ⟨hall, -⟩⟩
  · exact nomatch h.symm.trans hname
  · exact nomatch h.symm.trans hname
  · exact ⟨ids, hids, hall⟩

theorem valid_of_check {fleet mid : Fleet} {route : Route}
    (h : outcome (check route) fleet = (.ok (), mid)) : route.Valid := by
  rw [outcome_check] at h
  by_cases hvalid : route.validate.isValid = true
  · exact Route.Valid.of_isValid hvalid
  · rw [if_neg hvalid] at h
    exact nomatch h

theorem isNew_planAdd {fleet mid : Fleet} {route : Route} {r : StoredRoute}
    (h : outcome (planAdd route) fleet = (.ok r, mid)) : IsNew fleet.store route.name none r.id := by
  obtain ⟨_, mid₁, hcheck, hrest⟩ := outcome_bind_eq_ok h
  obtain ⟨_, mid₂, hname, hrest⟩ := outcome_bind_eq_ok hrest
  obtain ⟨id, mid₃, hid, hrest⟩ := outcome_bind_eq_ok hrest
  obtain ⟨g, mid₄, -, hrest⟩ := outcome_bind_eq_ok hrest
  obtain ⟨⟨⟩, -⟩ := Prod.mk.inj hrest
  obtain rfl := (keeps_check _ route).eq_of_outcome hcheck
  exact isNew_freshId (valid_of_check hcheck) hname hid

theorem isPlanned_planUpdate {fleet mid : Fleet} {route : Route} {current : RouteId} {r : StoredRoute}
    (h : outcome (planUpdate route current) fleet = (.ok r, mid)) :
    IsPlanned fleet.store current route.name r := by
  obtain ⟨_, mid₁, hcheck, hrest⟩ := outcome_bind_eq_ok h
  obtain rfl := (keeps_check _ route).eq_of_outcome hcheck
  obtain ⟨found, mid₂, hfound, hrest⟩ := outcome_bind_eq_ok hrest
  rcases outcome_load_cases current mid₁ with ⟨e, hload⟩ | ⟨hload, -⟩ | ⟨g, hload, hstored⟩
  · exact nomatch hload.symm.trans hfound
  · obtain ⟨⟨⟩, rfl⟩ := Prod.mk.inj (hload.symm.trans hfound)
    exact nomatch (Prod.mk.inj hrest).1
  obtain ⟨⟨⟩, rfl⟩ := Prod.mk.inj (hload.symm.trans hfound)
  obtain ⟨id, mid₃, hid, hrest⟩ := outcome_bind_eq_ok hrest
  obtain ⟨g', mid₄, -, hrest⟩ := outcome_bind_eq_ok hrest
  obtain ⟨⟨⟩, -⟩ := Prod.mk.inj hrest
  refine ⟨⟨g, hstored⟩, ?_⟩
  rw [nextId] at hid
  split at hid
  · rename_i hname
    obtain ⟨⟨⟩, -⟩ := Prod.mk.inj hid
    exact .inl ⟨rfl, hname⟩
  · rename_i hname
    obtain ⟨_, mid₅, hcheckName, hid⟩ := outcome_bind_eq_ok hid
    exact .inr ⟨hname, isNew_freshId (valid_of_check hcheck) hcheckName hid⟩

/-! ## Changes -/

/-- The changes that put a route in the place of the one under `current`: the new one is written, and
the old one is removed if it lies elsewhere. -/
def replacing (current : RouteId) (r : StoredRoute) (bytes : ByteArray) : List Store.Change :=
  .write r.id.text bytes :: if r.id = current then [] else [.remove current.text]

/-- A route that cannot be written is not stored; else the changes are made in turn. -/
theorem outcome_replace_cases (current : RouteId) (r : StoredRoute) (fleet : Fleet) :
    (∃ cause, outcome (replace current r) fleet = (.error (.store cause), fleet)) ∨
    ∃ bytes, bytesOf r.id.text r.graph = .ok bytes ∧
      outcome (replace current r) fleet =
        (((fleet.store.changeAll (replacing current r bytes)).1.map fun _ => r).mapError .store,
          { fleet with store := (fleet.store.changeAll (replacing current r bytes)).2 }) := by
  rcases outcome_save_cases r.id.text r.graph fleet with ⟨cause, -, hsave⟩ | ⟨bytes, hbytes, hsave⟩
  · exact .inl ⟨cause, outcome_bind_error hsave⟩
  refine .inr ⟨bytes, hbytes, ?_⟩
  rw [replacing]
  have hchange := fleet.store.change_write r.id.text bytes
  rcases hwrite : fleet.store.write r.id.text bytes with ⟨cause | done, s⟩
  · rw [hwrite] at hsave hchange
    rw [Store.changeAll_cons_error _ hchange]
    exact outcome_bind_error hsave
  rw [hwrite] at hsave hchange
  rw [Store.changeAll_cons_ok _ hchange]
  refine (outcome_bind_ok hsave).trans ?_
  by_cases hid : r.id = current
  · rw [if_neg (not_not_intro hid), if_pos hid]
    rfl
  rw [if_pos hid, if_neg hid]
  have hremove := outcome_remove current { fleet with store := s }
  rcases hremoved : s.remove current.text with ⟨cause | found, s'⟩
  · rw [hremoved] at hremove
    rw [Store.changeAll_cons_error _ (Store.change_remove_error hremoved)]
    exact outcome_bind_error (outcome_bind_error hremove)
  · rw [hremoved] at hremove
    rw [Store.changeAll_cons_ok _ (Store.change_remove_ok hremoved)]
    exact outcome_bind_ok (outcome_bind_ok hremove)

/-- What is planned is stored, or nothing is done to the store. -/
theorem outcome_plan_cases {plan : FleetM StoredRoute} {current : StoredRoute → RouteId}
    (hkeeps : Keeps Fleet.store plan) {fleet after : Fleet} {result : Except FleetError StoredRoute}
    (h : outcome (plan >>= fun r => replace (current r) r) fleet = (result, after)) :
    (∃ e, result = .error e ∧ after.store = fleet.store) ∨
    ∃ r mid bytes, outcome plan fleet = (.ok r, mid) ∧ bytesOf r.id.text r.graph = .ok bytes ∧
      result = ((fleet.store.changeAll (replacing (current r) r bytes)).1.map
        fun _ => r).mapError .store ∧
      after.store = (fleet.store.changeAll (replacing (current r) r bytes)).2 := by
  rcases outcome_bind_cases h with ⟨e, hplan, rfl⟩ | ⟨r, mid, hplan, hreplace⟩
  · exact .inl ⟨e, rfl, hkeeps.view_eq hplan⟩
  have hmid := hkeeps.view_eq hplan
  rcases outcome_replace_cases (current r) r mid with ⟨cause, hfail⟩ | ⟨bytes, hbytes, hmade⟩
  · obtain ⟨rfl, rfl⟩ := Prod.mk.inj (hfail.symm.trans hreplace)
    exact .inl ⟨_, rfl, hmid⟩
  · rw [hmid] at hmade
    obtain ⟨rfl, rfl⟩ := Prod.mk.inj (hmade.symm.trans hreplace)
    exact .inr ⟨r, mid, bytes, hplan, hbytes, rfl, rfl⟩

section Replacing

variable {s : Store} {current : RouteId} {r : StoredRoute} {entries : Dict Entry}

/-- How the changes go: the write is refused, or the new object is there; then the old one is there
too until it is removed, which may be refused. -/
inductive Goes (s : Store) (current : RouteId) (r : StoredRoute) (entries : Dict Entry)
    (bytes : ByteArray) : Except StoreError Unit × Store → List Store → Prop
  | refused {cause : StoreError} (after : Store) (h : after.content = s.content) :
    Goes s current r entries bytes (.error cause, after) [s, after]
  | inPlace (after : Store) (hid : r.id = current)
    (h : after.content = .ok (entries.insert r.id.fileName (.file bytes))) :
    Goes s current r entries bytes (.ok (), after) [s, after]
  | stuck {cause : StoreError} (mid after : Store) (hid : r.id ≠ current)
    (hmid : mid.content = .ok (entries.insert r.id.fileName (.file bytes)))
    (hremove : mid.remove current.text = (.error cause, after)) (h : after.content = mid.content) :
    Goes s current r entries bytes (.error cause, after) [s, mid, after]
  | moved (mid after : Store) (hid : r.id ≠ current)
    (hmid : mid.content = .ok (entries.insert r.id.fileName (.file bytes)))
    (h : after.content =
      .ok ((entries.insert r.id.fileName (.file bytes)).erase current.fileName)) :
    Goes s current r entries bytes (.ok (), after) [s, mid, after]

theorem goes_replacing (h : s.content = .ok entries) (bytes : ByteArray)
    (hold : r.id ≠ current → ∃ old, entries.get? current.fileName = some (.file old)) :
    Goes s current r entries bytes (s.changeAll (replacing current r bytes))
      (s.moments (replacing current r bytes)) := by
  rw [replacing]
  rcases s.write_cases r.id.text bytes with ⟨cause, hwrite⟩ | ⟨entries', hentries, hwrite⟩
  · have hchange := (s.change_write r.id.text bytes).trans hwrite
    rw [Store.changeAll_cons_error _ hchange, Store.moments_cons_error _ hchange]
    exact .refused _ rfl
  obtain rfl := Except.ok.inj (h.symm.trans hentries)
  obtain ⟨mid, hmid⟩ : ∃ mid, s.afterWrite.withEntries
      (entries.insert (Store.fileName r.id.text) (.file bytes)) = mid := ⟨_, rfl⟩
  have hcontent : mid.content = .ok (entries.insert r.id.fileName (.file bytes)) := hmid ▸ rfl
  have hchange := (s.change_write r.id.text bytes).trans (hmid ▸ hwrite)
  rw [Store.changeAll_cons_ok _ hchange, Store.moments_cons_ok _ hchange]
  by_cases hid : r.id = current
  · rw [if_pos hid]
    exact .inPlace mid hid hcontent
  rw [if_neg hid]
  rcases mid.remove_cases current.text with
    ⟨cause, hremove⟩ | ⟨hnone, -⟩ | ⟨entries', _, hentries', -, hremove⟩
  · have hchange := Store.change_remove_error hremove
    rw [Store.changeAll_cons_error _ hchange, Store.moments_cons_error _ hchange]
    exact .stuck mid _ hid hcontent hremove rfl
  · -- The new object lies elsewhere, so the old one is still there.
    obtain ⟨old, hold⟩ := hold hid
    have hthere : (entries.insert r.id.fileName (.file bytes)).get? current.fileName =
        some (.file old) := by
      rw [Dict.get?_insert, if_neg fun hfile => hid (RouteId.fileName_inj hfile).symm, hold]
    exact nomatch hthere.symm.trans (hnone _ hcontent)
  · obtain rfl := Except.ok.inj (hcontent.symm.trans hentries')
    have hchange := Store.change_remove_ok hremove
    rw [Store.changeAll_cons_ok _ hchange, Store.moments_cons_ok _ hchange]
    exact .moved mid _ hid hcontent rfl

end Replacing

/-! ## All or nothing -/

/-- How adding a route ends: nothing is changed, or one object is there more, under a key where nothing
lay. -/
def IsAdded (before : Store) : Except FleetError StoredRoute → Store → Prop
  | .error _, after => after.content = before.content
  | .ok r, after => ∃ entries bytes, before.content = .ok entries ∧
      entries.get? r.id.fileName = none ∧ bytesOf r.id.text r.graph = .ok bytes ∧
      after.content = .ok (entries.insert r.id.fileName (.file bytes))

/-- How replacing the route under `current` ends: nothing is changed, or only the removal fails and the
new object is there beside the old one; or the new object is there instead of the old one, under the
same key if the name is the same and else under one where nothing lay. -/
def IsReplaced (current : RouteId) (name : String) (before : Store) :
    Except FleetError StoredRoute → Store → Prop
  | .error e, after => after.content = before.content ∨
      ∃ (entries : Dict Entry) (r : StoredRoute) (bytes : ByteArray) (mid : Store)
          (cause : StoreError), before.content = .ok entries ∧ r.id ≠ current ∧
        entries.get? r.id.fileName = none ∧ bytesOf r.id.text r.graph = .ok bytes ∧
        mid.content = .ok (entries.insert r.id.fileName (.file bytes)) ∧
        mid.remove current.text = (.error cause, after) ∧ e = .store cause ∧
        after.content = mid.content
  | .ok r, after => ∃ entries old bytes, before.content = .ok entries ∧
      entries.get? current.fileName = some (.file old) ∧ bytesOf r.id.text r.graph = .ok bytes ∧
      (r.id = current ↔ current.name = name) ∧
      (r.id ≠ current → entries.get? r.id.fileName = none) ∧
      after.content = .ok (if r.id = current then entries.insert r.id.fileName (.file bytes)
        else (entries.insert r.id.fileName (.file bytes)).erase current.fileName)

/-- How the route under `current` is replaced meanwhile: no change is made, or a new object is written
and then the old one is removed if it lies elsewhere. At each moment what lay under `current` is there,
or the object is there that the whole comes to. -/
def IsNeverMissing (current : RouteId) (before : Store) (result : Except FleetError StoredRoute)
    (after : Store) : Prop :=
  ∃ changes, (changes = [] ∨
      ∃ (r : StoredRoute) (bytes : ByteArray), bytesOf r.id.text r.graph = .ok bytes ∧
        changes = replacing current r bytes) ∧
    (before.moments changes).getLast? = some after ∧
    ∀ moment ∈ before.moments changes, moment.file? current = before.file? current ∨
      ∃ r bytes, result = .ok r ∧ bytesOf r.id.text r.graph = .ok bytes ∧
        moment.file? r.id = some (.file bytes)

/-- How removing a route ends: nothing is changed, or the one object is gone. -/
def IsRemoved (id : RouteId) (before : Store) : Except FleetError Unit → Store → Prop
  | .error _, after => after.content = before.content
  | .ok (), after => ∃ entries old, before.content = .ok entries ∧
      entries.get? id.fileName = some (.file old) ∧ after.content = .ok (entries.erase id.fileName)

theorem IsNew.exists_entries {s : Store} {name : String} {except : Option RouteId} {id : RouteId}
    (h : IsNew s name except id) :
    ∃ entries, s.content = .ok entries ∧ entries.get? id.fileName = none := by
  obtain ⟨ids, hids, -⟩ := h.unused
  obtain ⟨entries, hentries⟩ := Store.exists_entries_of_list hids
  exact ⟨entries, hentries, ((Store.isThere_eq_false_iff hentries).mp h.isFree).2⟩

theorem IsNew.isPlainKey {s : Store} {name : String} {except : Option RouteId} {id : RouteId}
    (h : IsNew s name except id) : Store.isPlainKey id.text = true := by
  obtain ⟨entries, hentries, -⟩ := h.exists_entries
  exact ((Store.isThere_eq_false_iff hentries).mp h.isFree).1.1

theorem IsPlanned.isPlainKey {s : Store} {current : RouteId} {name : String} {r : StoredRoute}
    (h : IsPlanned s current name r) : Store.isPlainKey r.id.text = true := by
  rcases h.next with ⟨hid, -⟩ | ⟨-, hnew⟩
  · obtain ⟨g, old, hread, -⟩ := h.old
    obtain ⟨entries, hentries⟩ := Store.exists_entries_of_read hread
    exact hid ▸ ((Store.read_eq_ok_iff hentries).mp hread).1.1
  · exact hnew.isPlainKey

theorem IsPlanned.exists_entries {s : Store} {current : RouteId} {name : String} {r : StoredRoute}
    (h : IsPlanned s current name r) : ∃ entries old, s.content = .ok entries ∧
      entries.get? current.fileName = some (.file old) ∧ (r.id = current ↔ current.name = name) ∧
        (r.id ≠ current → entries.get? r.id.fileName = none) := by
  obtain ⟨g, old, hread, -⟩ := h.old
  obtain ⟨entries, hentries⟩ := Store.exists_entries_of_read hread
  refine ⟨entries, old, hentries, ((Store.read_eq_ok_iff hentries).mp hread).2, ?_⟩
  rcases h.next with ⟨hid, hname⟩ | ⟨hname, hnew⟩
  · exact ⟨⟨fun _ => hname, fun _ => hid⟩, fun hne => absurd hid hne⟩
  · have hid : r.id ≠ current := by
      rintro rfl
      exact hname hnew.name_eq
    refine ⟨⟨fun heq => absurd heq hid, fun heq => absurd heq hname⟩, fun _ => ?_⟩
    exact ((Store.isThere_eq_false_iff hentries).mp hnew.isFree).2

section Replacing

variable {s : Store} {current : RouteId} {name : String} {r : StoredRoute} {entries : Dict Entry}
variable {old bytes : ByteArray} {made : Except StoreError Unit × Store} {moments : List Store}

theorem Goes.isAdded (h : Goes s r.id r entries bytes made moments) (hentries : s.content = .ok entries)
    (hfree : entries.get? r.id.fileName = none) (hbytes : bytesOf r.id.text r.graph = .ok bytes) :
    IsAdded s ((made.1.map fun _ => r).mapError .store) made.2 := by
  cases h with
  | refused after h => exact h
  | inPlace after hid h => exact ⟨entries, bytes, hentries, hfree, hbytes, h⟩
  | stuck mid after hid => exact absurd rfl hid
  | moved mid after hid => exact absurd rfl hid

theorem Goes.isReplaced (h : Goes s current r entries bytes made moments)
    (hentries : s.content = .ok entries) (hold : entries.get? current.fileName = some (.file old))
    (hbytes : bytesOf r.id.text r.graph = .ok bytes) (hname : r.id = current ↔ current.name = name)
    (hfree : r.id ≠ current → entries.get? r.id.fileName = none) :
    IsReplaced current name s ((made.1.map fun _ => r).mapError .store) made.2 := by
  cases h with
  | refused after h => exact .inl h
  | inPlace after hid h =>
    exact ⟨entries, old, bytes, hentries, hold, hbytes, hname, hfree, (if_pos hid).symm ▸ h⟩
  | stuck mid after hid hmid hremove h =>
    exact .inr ⟨entries, r, bytes, mid, _, hentries, hid, hfree hid, hbytes, hmid, hremove, rfl, h⟩
  | moved mid after hid hmid h =>
    exact ⟨entries, old, bytes, hentries, hold, hbytes, hname, hfree, (if_neg hid).symm ▸ h⟩

theorem Goes.old_or_new (h : Goes s current r entries bytes made moments)
    (hentries : s.content = .ok entries) : ∀ moment ∈ moments,
      moment.file? current = s.file? current ∨
        made.1 = .ok () ∧ moment.file? r.id = some (.file bytes) := by
  -- Where the new object lies elsewhere, writing it leaves the old one there.
  have hbeside : ∀ {mid : Store}, r.id ≠ current →
      mid.content = .ok (entries.insert r.id.fileName (.file bytes)) →
      mid.file? current = s.file? current := by
    intro mid hid hmid
    rw [Store.file?_eq hmid, Store.file?_eq hentries, Dict.get?_insert,
      if_neg fun hfile => hid (RouteId.fileName_inj hfile).symm]
  have hend := List.forall_mem_nil fun moment : Store => moment.file? current = s.file? current ∨
    made.1 = .ok () ∧ moment.file? r.id = some (.file bytes)
  cases h with
  | refused after h =>
    exact List.forall_mem_cons.mpr ⟨.inl rfl, List.forall_mem_cons.mpr
      ⟨.inl (Store.file?_congr h current), hend⟩⟩
  | inPlace after hid h =>
    refine List.forall_mem_cons.mpr ⟨.inl rfl, List.forall_mem_cons.mpr ⟨.inr ⟨rfl, ?_⟩, hend⟩⟩
    rw [Store.file?_eq h, Dict.get?_insert, if_pos rfl]
  | stuck mid after hid hmid hremove h =>
    exact List.forall_mem_cons.mpr ⟨.inl rfl, List.forall_mem_cons.mpr ⟨.inl (hbeside hid hmid),
      List.forall_mem_cons.mpr ⟨.inl (hbeside hid (h.trans hmid)), hend⟩⟩⟩
  | moved mid after hid hmid h =>
    refine List.forall_mem_cons.mpr ⟨.inl rfl, List.forall_mem_cons.mpr ⟨.inl (hbeside hid hmid),
      List.forall_mem_cons.mpr ⟨.inr ⟨rfl, ?_⟩, hend⟩⟩⟩
    rw [Store.file?_eq h, Dict.get?_erase, if_neg fun hfile => hid (RouteId.fileName_inj hfile),
      Dict.get?_insert, if_pos rfl]

end Replacing

theorem isAdded_add {route : Route} {fleet after : Fleet} {result : Except FleetError StoredRoute}
    (h : outcome (add route) fleet = (result, after)) : IsAdded fleet.store result after.store := by
  rw [add_eq] at h
  rcases outcome_plan_cases (keeps_planAdd route) h with
    ⟨e, rfl, hstore⟩ | ⟨r, mid, bytes, hplan, hbytes, rfl, hstore⟩
  · exact congrArg Store.content hstore
  obtain ⟨entries, hentries, hfree⟩ := (isNew_planAdd hplan).exists_entries
  rw [hstore]
  exact (goes_replacing hentries bytes fun hne => absurd rfl hne).isAdded hentries hfree hbytes

theorem isReplaced_update {route : Route} {current : RouteId} (hid : route.id = some current)
    {fleet after : Fleet} {result : Except FleetError StoredRoute}
    (h : outcome (update route) fleet = (result, after)) :
    IsReplaced current route.name fleet.store result after.store ∧
      IsNeverMissing current fleet.store result after.store := by
  rw [update_eq hid] at h
  rcases outcome_plan_cases (keeps_planUpdate route current) h with
    ⟨e, rfl, hstore⟩ | ⟨r, mid, bytes, hplan, hbytes, rfl, hstore⟩
  · refine ⟨.inl (congrArg Store.content hstore), [], .inl rfl, congrArg some hstore.symm, ?_⟩
    intro moment hmoment
    obtain rfl := List.mem_singleton.mp hmoment
    exact .inl rfl
  obtain ⟨entries, old, hentries, hold, hname, hfree⟩ := (isPlanned_planUpdate hplan).exists_entries
  have hgoes := goes_replacing (r := r) hentries bytes fun _ => ⟨old, hold⟩
  rw [hstore]
  refine ⟨hgoes.isReplaced hentries hold hbytes hname hfree, replacing current r bytes,
    .inr ⟨r, bytes, hbytes, rfl⟩, Store.getLast?_moments _ _, fun moment hmoment => ?_⟩
  refine (hgoes.old_or_new hentries moment hmoment).imp_right fun hnew => ⟨r, bytes, ?_, hbytes, hnew.2⟩
  rw [hnew.1]
  rfl

theorem isRemoved_delete {id : RouteId} {fleet after : Fleet} {result : Except FleetError Unit}
    (h : outcome (delete id) fleet = (result, after)) : IsRemoved id fleet.store result after.store := by
  rcases fleet.store.remove_cases id.text with
    ⟨cause, hremove⟩ | ⟨-, hremove⟩ | ⟨entries, old, hentries, hold, hremove⟩
  · obtain ⟨rfl, rfl⟩ := Prod.mk.inj ((outcome_bind_error (outcome_remove_error hremove)).symm.trans h)
    exact rfl
  · obtain ⟨rfl, rfl⟩ := Prod.mk.inj ((outcome_bind_ok (outcome_remove_ok hremove)).symm.trans h)
    exact rfl
  · obtain ⟨rfl, rfl⟩ := Prod.mk.inj ((outcome_bind_ok (outcome_remove_ok hremove)).symm.trans h)
    exact ⟨entries, old, hentries, hold, rfl⟩

/-- Operations on one route do all that they should or nothing, whatever the store holds and refuses,
and the route that is replaced is at no moment missing. -/
theorem allOrNothing (fleet : Fleet) :
    (∀ route, IsAdded fleet.store (outcome (add route) fleet).1 (outcome (add route) fleet).2.store) ∧
    (∀ route : Route, match route.id with
      | none => outcome (update route) fleet = (.error .missingId, fleet)
      | some current =>
        IsReplaced current route.name fleet.store (outcome (update route) fleet).1
            (outcome (update route) fleet).2.store ∧
          IsNeverMissing current fleet.store (outcome (update route) fleet).1
            (outcome (update route) fleet).2.store) ∧
    ∀ id, IsRemoved id fleet.store (outcome (delete id) fleet).1 (outcome (delete id) fleet).2.store := by
  refine ⟨fun route => isAdded_add (Prod.eta _).symm, fun route => ?_,
    fun id => isRemoved_delete (Prod.eta _).symm⟩
  cases hid : route.id with
  | none =>
    rw [update, hid]
    rfl
  | some current => exact isReplaced_update hid (Prod.eta _).symm

end Fleet

end RouteFleet
