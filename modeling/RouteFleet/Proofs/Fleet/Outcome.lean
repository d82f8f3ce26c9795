import RouteFleet.Fleet.Bulk
import RouteFleet.Proofs.Store.Listing

/-! # What operations on a fleet come to

An operation comes to a result and leaves a fleet (`Fleet.outcome`). Of two operations in turn either
the first fails, or the second starts from what the first has left (`Fleet.outcome_bind_cases`).

Most operations only look: whatever of a fleet one wants to see, they keep it (`Fleet.Keeps`). What
looks in its way through the routes comes to what is said of the store here (`Fleet.outcome_load_cases`,
`Fleet.outcome_loadAll`), and a new identity is made from one of the tags (`Fleet.outcome_freshId`).
-/

namespace RouteFleet

namespace Fleet

variable {α β : Type}

/-! ## One after another -/

/-- What an operation comes to, and the fleet after it. -/
def outcome (x : FleetM α) (fleet : Fleet) : Except FleetError α × Fleet := x.run.run fleet

@[simp] theorem outcome_pure (a : α) (fleet : Fleet) : outcome (pure a) fleet = (.ok a, fleet) := rfl

@[simp] theorem outcome_throw (e : FleetError) (fleet : Fleet) :
    outcome (throw e : FleetM α) fleet = (.error e, fleet) := rfl

theorem outcome_bind_ok {x : FleetM α} {f : α → FleetM β} {fleet fleet' : Fleet} {a : α}
    (h : outcome x fleet = (.ok a, fleet')) : outcome (x >>= f) fleet = outcome (f a) fleet' := by
  show outcome (x >>= f) fleet = _
  unfold outcome at h ⊢
  simp only [ExceptT.run_bind, StateT.run_bind]
  rw [h]
  rfl

theorem outcome_bind_error {x : FleetM α} {f : α → FleetM β} {fleet fleet' : Fleet} {e : FleetError}
    (h : outcome x fleet = (.error e, fleet')) : outcome (x >>= f) fleet = (.error e, fleet') := by
  unfold outcome at h ⊢
  simp only [ExceptT.run_bind, StateT.run_bind]
  rw [h]
  rfl

@[simp] theorem outcome_look (f : Store → Except StoreError α) (fleet : Fleet) :
    outcome (look f) fleet = ((f fleet.store).mapError .store, fleet) := rfl

theorem outcome_look_ok {f : Store → Except StoreError α} {fleet : Fleet} {a : α}
    (h : f fleet.store = .ok a) : outcome (look f) fleet = (.ok a, fleet) := by
  rw [outcome_look, h]
  rfl

theorem outcome_look_error {f : Store → Except StoreError α} {fleet : Fleet} {e : StoreError}
    (h : f fleet.store = .error e) : outcome (look f) fleet = (.error (.store e), fleet) := by
  rw [outcome_look, h]
  rfl

@[simp] theorem outcome_act (f : Store → Except StoreError α × Store) (fleet : Fleet) :
    outcome (act f) fleet =
      ((f fleet.store).1.mapError .store, { fleet with store := (f fleet.store).2 }) := rfl

/-- Of two operations in turn the first fails, or the second starts from what it has left. -/
theorem outcome_bind_cases {x : FleetM α} {f : α → FleetM β} {fleet after : Fleet}
    {result : Except FleetError β} (h : outcome (x >>= f) fleet = (result, after)) :
    (∃ e, outcome x fleet = (.error e, after) ∧ result = .error e) ∨
      ∃ a mid, outcome x fleet = (.ok a, mid) ∧ outcome (f a) mid = (result, after) := by
  cases hx : outcome x fleet with
  | mk first mid =>
    cases first with
    | error e =>
      rw [outcome_bind_error hx] at h
      obtain ⟨rfl, rfl⟩ := Prod.mk.inj h
      exact .inl ⟨e, rfl, rfl⟩
    | ok a =>
      rw [outcome_bind_ok hx] at h
      exact .inr ⟨a, mid, rfl, h⟩

/-- What succeeds in turn succeeds at each turn. -/
theorem outcome_bind_eq_ok {x : FleetM α} {f : α → FleetM β} {fleet after : Fleet} {b : β}
    (h : outcome (x >>= f) fleet = (.ok b, after)) :
    ∃ a mid, outcome x fleet = (.ok a, mid) ∧ outcome (f a) mid = (.ok b, after) := by
  rcases outcome_bind_cases h with ⟨e, -, heq⟩ | hok
  · exact nomatch heq
  · exact hok

/-- What is made of a result does not matter for the fleet. -/
theorem outcome_bind_pure (x : FleetM α) (f : α → β) (fleet : Fleet) :
    outcome (x >>= fun a => pure (f a)) fleet = ((outcome x fleet).1.map f, (outcome x fleet).2) := by
  rcases hx : outcome x fleet with ⟨e | a, after⟩
  · exact outcome_bind_error hx
  · exact outcome_bind_ok hx

/-! ## Looking -/

/-- Whether an operation leaves as it is what `view` shows of a fleet. -/
def Keeps {γ : Type} (view : Fleet → γ) (x : FleetM α) : Prop :=
  ∀ fleet, view (outcome x fleet).2 = view fleet

namespace Keeps

variable {γ : Type} {view : Fleet → γ}

theorem pure (a : α) : Keeps view (pure a) := fun _ => rfl

theorem throw (e : FleetError) : Keeps view (throw e : FleetM α) := fun _ => rfl

theorem look (f : Store → Except StoreError α) : Keeps view (look f) := fun _ => rfl

theorem bind {x : FleetM α} {f : α → FleetM β} (hx : Keeps view x) (hf : ∀ a, Keeps view (f a)) :
    Keeps view (x >>= f) := by
  intro fleet
  cases h : outcome (x >>= f) fleet with
  | mk result after =>
    rcases outcome_bind_cases h with ⟨e, hfirst, -⟩ | ⟨a, mid, hfirst, hnext⟩
    · have hkeeps := hx fleet
      rwa [hfirst] at hkeeps
    · have hkeeps := hx fleet
      have hkeeps' := hf a mid
      rw [hfirst] at hkeeps
      rw [hnext] at hkeeps'
      exact hkeeps'.trans hkeeps

/-- What keeps the whole fleet comes to nothing but a result. -/
theorem eq_of_outcome {x : FleetM α} (h : Keeps id x) {fleet after : Fleet}
    {result : Except FleetError α} (houtcome : outcome x fleet = (result, after)) : after = fleet := by
  have hkeeps := h fleet
  rwa [houtcome] at hkeeps

/-- What keeps a view ends with a fleet in which it is the same. -/
theorem view_eq {x : FleetM α} (h : Keeps view x) {fleet after : Fleet}
    {result : Except FleetError α} (houtcome : outcome x fleet = (result, after)) :
    view after = view fleet := by
  have hkeeps := h fleet
  rwa [houtcome] at hkeeps

end Keeps

section Looking

variable {γ : Type} (view : Fleet → γ)

theorem keeps_load (id : RouteId) : Keeps view (load id) := by
  refine (Keeps.look _).bind fun found => ?_
  cases found with
  | none => exact Keeps.pure _
  | some bytes => exact (Keeps.look _).bind fun g => Keeps.pure _

theorem keeps_loadAll (ids : List RouteId) : Keeps view (loadAll ids) := by
  induction ids with
  | nil => exact Keeps.pure _
  | cons id ids ih =>
    refine (keeps_load view id).bind fun found => ?_
    cases found with
    | none => exact ih
    | some g => exact ih.bind fun rs => Keeps.pure _

theorem keeps_list : Keeps view list := (Keeps.look _).bind fun ids => keeps_loadAll view ids

theorem keeps_check (route : Route) : Keeps view (check route) := by
  rw [check]
  split
  · exact Keeps.pure _
  · exact Keeps.throw _

theorem keeps_checkName (name : String) (except : Option RouteId) :
    Keeps view (checkName name except) := by
  refine Keeps.bind ((Keeps.look _).bind fun ids => Keeps.pure _) fun taken => ?_
  split
  · exact Keeps.throw _
  · exact Keeps.pure _

theorem keeps_compile (id : RouteId) (route : Route) (previous : Option Graph) :
    Keeps view (compile id route previous) := fun _ => rfl

end Looking

theorem keeps_freshId (name : String) : Keeps Fleet.store (freshId name) := fun _ => rfl

theorem keeps_nextId (current : RouteId) (name : String) : Keeps Fleet.store (nextId current name) := by
  rw [nextId]
  split
  · exact Keeps.pure _
  · exact (keeps_checkName _ _ _).bind fun _ => keeps_freshId name

/-! ## Checking -/

theorem outcome_check (route : Route) (fleet : Fleet) : outcome (check route) fleet =
    (if route.validate.isValid then .ok () else .error (.invalid route.validate), fleet) := by
  rw [check]
  split
  · rfl
  · rfl

/-- A name is refused if a listed route bears it, other than the one that is excepted. -/
theorem outcome_checkName_cases (name : String) (except : Option RouteId) (fleet : Fleet) :
    (∃ cause, fleet.store.list = .error cause ∧
      outcome (checkName name except) fleet = (.error (.store cause), fleet)) ∨
    ∃ ids, fleet.store.list = .ok ids ∧
      (((∃ id ∈ ids, id.name = name ∧ some id ≠ except) ∧
          outcome (checkName name except) fleet = (.error (.alreadyExists name), fleet)) ∨
        ((∀ id ∈ ids, id.name = name → some id = except) ∧
          outcome (checkName name except) fleet = (.ok (), fleet))) := by
  cases hlist : fleet.store.list with
  | error cause =>
    have hlook : outcome (look (·.list)) fleet = (.error (.store cause), fleet) :=
      outcome_look_error hlist
    exact .inl ⟨cause, rfl, outcome_bind_error (outcome_bind_error hlook)⟩
  | ok ids =>
    have hlook : outcome (look (·.list)) fleet = (.ok ids, fleet) := outcome_look_ok hlist
    have htaken : outcome (isNameTaken name except) fleet =
        (.ok (ids.any fun id => id.name = name && some id ≠ except), fleet) := outcome_bind_ok hlook
    refine .inr ⟨ids, rfl, ?_⟩
    cases hany : ids.any fun id => id.name = name && some id ≠ except with
    | true =>
      rw [hany] at htaken
      refine .inl ⟨?_, outcome_bind_ok htaken⟩
      simpa using hany
    | false =>
      rw [hany] at htaken
      refine .inr ⟨?_, outcome_bind_ok htaken⟩
      simpa using hany

theorem outcome_compile (id : RouteId) (route : Route) (previous : Option Graph) (fleet : Fleet) :
    outcome (compile id route previous) fleet =
      ((fleet.compiler.recompile id route previous).mapError (.compile id), fleet) := rfl

/-! ## Loading -/

/-- Whether a route is stored as its graph says. -/
def IsStored (s : Store) (r : StoredRoute) : Prop :=
  ∃ bytes, s.read r.id.text = .ok (some bytes) ∧ graphOf r.id.text bytes = .ok r.graph

theorem outcome_load_cases (id : RouteId) (fleet : Fleet) :
    (∃ e, outcome (load id) fleet = (.error (.store e), fleet)) ∨
      (outcome (load id) fleet = (.ok none, fleet) ∧ fleet.store.read id.text = .ok none) ∨
      ∃ g, outcome (load id) fleet = (.ok (some g), fleet) ∧
        IsStored fleet.store { id := id, graph := g } := by
  cases hread : fleet.store.read id.text with
  | error e =>
    have hlook : outcome (look (·.read id.text)) fleet = (.error (.store e), fleet) :=
      outcome_look_error hread
    exact .inl ⟨e, outcome_bind_error hlook⟩
  | ok found =>
    have hlook : outcome (look (·.read id.text)) fleet = (.ok found, fleet) := outcome_look_ok hread
    cases found with
    | none => exact .inr (.inl ⟨outcome_bind_ok hlook, rfl⟩)
    | some bytes =>
      cases hg : graphOf id.text bytes with
      | error e =>
        have hgraph : outcome (look fun _ => graphOf id.text bytes) fleet =
            (.error (.store e), fleet) := outcome_look_error hg
        exact .inl ⟨e, (outcome_bind_ok hlook).trans (outcome_bind_error hgraph)⟩
      | ok g =>
        have hgraph : outcome (look fun _ => graphOf id.text bytes) fleet = (.ok g, fleet) :=
          outcome_look_ok hg
        exact .inr (.inr ⟨g, (outcome_bind_ok hlook).trans (outcome_bind_ok hgraph), bytes, hread, hg⟩)

/-- A route that is stored is loaded. -/
theorem outcome_load_of_isStored {fleet : Fleet} {r : StoredRoute} (h : IsStored fleet.store r) :
    outcome (load r.id) fleet = (.ok (some r.graph), fleet) := by
  obtain ⟨bytes, hread, hgraph⟩ := h
  have hlook : outcome (look (·.read r.id.text)) fleet = (.ok (some bytes), fleet) :=
    outcome_look_ok hread
  have hdecode : outcome (look fun _ => graphOf r.id.text bytes) fleet = (.ok r.graph, fleet) :=
    outcome_look_ok hgraph
  exact (outcome_bind_ok hlook).trans (outcome_bind_ok hdecode)

/-- Where nothing is stored nothing is loaded. -/
theorem outcome_load_of_gone {fleet : Fleet} {id : RouteId} (h : fleet.store.read id.text = .ok none) :
    outcome (load id) fleet = (.ok none, fleet) := by
  have hlook : outcome (look (·.read id.text)) fleet = (.ok none, fleet) := outcome_look_ok h
  exact outcome_bind_ok hlook

/-- Under one identity one route is stored. -/
theorem IsStored.eq {s : Store} {r r' : StoredRoute} (h : IsStored s r) (h' : IsStored s r')
    (hid : r.id = r'.id) : r = r' := by
  obtain ⟨id, g⟩ := r
  obtain ⟨id', g'⟩ := r'
  obtain rfl : id = id' := hid
  obtain ⟨bytes, hread, hgraph⟩ := h
  obtain ⟨bytes', hread', hgraph'⟩ := h'
  obtain rfl := Option.some.inj (Except.ok.inj (hread.symm.trans hread'))
  obtain rfl := Except.ok.inj (hgraph.symm.trans hgraph')
  rfl

/-- Whether a route lies in the folder at `root`. -/
def LiesIn (root : String) (entries : Dict Entry) (r : StoredRoute) : Prop :=
  Store.IsReachable root r.id.text ∧ ∃ old, entries.get? r.id.fileName = some (.file old)

theorem LiesIn.insert {root : String} {entries : Dict Entry} {r : StoredRoute} (h : LiesIn root entries r)
    (file : String) (bytes : ByteArray) : LiesIn root (entries.insert file (.file bytes)) r := by
  obtain ⟨hreach, old, hold⟩ := h
  refine ⟨hreach, ?_⟩
  by_cases hfile : r.id.fileName = file
  · exact ⟨bytes, by rw [Dict.get?_insert, if_pos hfile]⟩
  · exact ⟨old, by rw [Dict.get?_insert, if_neg hfile, hold]⟩

theorem LiesIn.get?_ne_folder {root : String} {entries : Dict Entry} {r : StoredRoute}
    (h : LiesIn root entries r) : entries.get? r.id.fileName ≠ some .folder := by
  obtain ⟨-, old, hold⟩ := h
  intro hfolder
  exact nomatch hold.symm.trans hfolder

theorem LiesIn.of_isStored {s : Store} {entries : Dict Entry} {r : StoredRoute}
    (hentries : s.content = .ok entries) (h : IsStored s r) : LiesIn s.root entries r := by
  obtain ⟨bytes, hread, -⟩ := h
  obtain ⟨hreach, hfile⟩ := (Store.read_eq_ok_iff hentries).mp hread
  exact ⟨hreach, bytes, hfile⟩

/-- Identities that can all be loaded can be loaded together. -/
theorem exists_outcome_loadAll {fleet : Fleet} {ids : List RouteId}
    (h : ∀ id ∈ ids, ∃ found, (outcome (load id) fleet).1 = .ok found) :
    ∃ rs, outcome (loadAll ids) fleet = (.ok rs, fleet) := by
  induction ids with
  | nil => exact ⟨[], rfl⟩
  | cons id ids ih =>
    rw [List.forall_mem_cons] at h
    obtain ⟨rs, hrs⟩ := ih h.2
    obtain ⟨found, hfound⟩ := h.1
    rw [loadAll]
    rcases outcome_load_cases id fleet with ⟨e, hload⟩ | ⟨hload, -⟩ | ⟨g, hload, -⟩
    · rw [hload] at hfound
      exact nomatch hfound
    · exact ⟨rs, (outcome_bind_ok hload).trans hrs⟩
    · exact ⟨_, (outcome_bind_ok hload).trans (outcome_bind_ok hrs)⟩

/-- One identity that cannot be loaded fails all. -/
theorem outcome_loadAll_error {fleet : Fleet} {ids : List RouteId} {id : RouteId} (hmem : id ∈ ids)
    {e : FleetError} (h : (outcome (load id) fleet).1 = .error e) :
    ∃ e', outcome (loadAll ids) fleet = (.error e', fleet) := by
  induction ids with
  | nil => exact absurd hmem List.not_mem_nil
  | cons id' ids ih =>
    rw [loadAll]
    rcases List.mem_cons.mp hmem with rfl | hmem
    · rcases outcome_load_cases id fleet with ⟨e', hload⟩ | ⟨hload, -⟩ | ⟨g, hload, -⟩
      · exact ⟨_, outcome_bind_error hload⟩
      · rw [hload] at h
        exact nomatch h
      · rw [hload] at h
        exact nomatch h
    · obtain ⟨e', hrest⟩ := ih hmem
      rcases outcome_load_cases id' fleet with ⟨e', hload⟩ | ⟨hload, -⟩ | ⟨g, hload, -⟩
      · exact ⟨_, outcome_bind_error hload⟩
      · exact ⟨e', (outcome_bind_ok hload).trans hrest⟩
      · exact ⟨e', (outcome_bind_ok hload).trans (outcome_bind_error hrest)⟩

/-- What is loaded together is stored, in the order of the identities; those left out are gone. -/
structure IsLoaded (s : Store) (ids : List RouteId) (rs : List StoredRoute) : Prop where
  sublist : (rs.map (·.id)).Sublist ids
  stored : ∀ r ∈ rs, IsStored s r
  gone : ∀ id ∈ ids, id ∉ rs.map (·.id) → s.read id.text = .ok none

theorem isLoaded_of_outcome {fleet after : Fleet} {ids : List RouteId} {rs : List StoredRoute}
    (h : outcome (loadAll ids) fleet = (.ok rs, after)) : IsLoaded fleet.store ids rs := by
  induction ids generalizing rs after with
  | nil =>
    obtain ⟨⟨⟩, -⟩ := Prod.mk.inj h
    exact ⟨.slnil, List.forall_mem_nil _, List.forall_mem_nil _⟩
  | cons id ids ih =>
    rw [loadAll] at h
    obtain ⟨found, mid, hfound, hrest⟩ := outcome_bind_eq_ok h
    rcases outcome_load_cases id fleet with ⟨e, hload⟩ | ⟨hload, hnone⟩ | ⟨g, hload, hstored⟩
    · rw [hload] at hfound
      exact nomatch hfound
    · obtain ⟨⟨⟩, rfl⟩ := Prod.mk.inj (hload.symm.trans hfound)
      obtain ⟨hsublist, hall, hgone⟩ := ih hrest
      exact ⟨hsublist.cons id, hall, List.forall_mem_cons.mpr ⟨fun _ => hnone, hgone⟩⟩
    · obtain ⟨⟨⟩, rfl⟩ := Prod.mk.inj (hload.symm.trans hfound)
      obtain ⟨rs', mid, hrs', hpure⟩ := outcome_bind_eq_ok hrest
      obtain ⟨⟨⟩, -⟩ := Prod.mk.inj hpure
      obtain ⟨hsublist, hall, hgone⟩ := ih hrs'
      refine ⟨hsublist.cons_cons id, List.forall_mem_cons.mpr ⟨hstored, hall⟩,
        List.forall_mem_cons.mpr ⟨fun hnot => ?_, fun id' hid' hnot => ?_⟩⟩
      · exact absurd List.mem_cons_self hnot
      · exact hgone id' hid' fun hmem => hnot (List.mem_cons_of_mem _ hmem)

/-- Where one route is stored, that one is loaded. -/
theorem IsLoaded.eq_singleton {s : Store} {r : StoredRoute} {rs : List StoredRoute}
    (h : IsLoaded s [r.id] rs) (hr : IsStored s r) : rs = [r] := by
  match rs, h with
  | [], h =>
    obtain ⟨bytes, hread, -⟩ := hr
    exact nomatch hread.symm.trans (h.gone r.id List.mem_cons_self List.not_mem_nil)
  | [r'], h =>
    have hid := List.mem_singleton.mp (h.sublist.subset List.mem_cons_self)
    exact congrArg (fun r => [r]) ((h.stored r' List.mem_cons_self).eq hr hid)
  | _ :: _ :: _, h => exact absurd h.sublist.length_le (by simp)

/-- Whether one of some identities cannot be loaded. -/
def SomeUnread (fleet : Fleet) (ids : List RouteId) : Prop :=
  ∃ id ∈ ids, ∃ e, (outcome (load id) fleet).1 = .error e

/-- Whether under each of some identities a route is stored, or nothing is there. -/
def AllRead (s : Store) (ids : List RouteId) : Prop :=
  ∀ id ∈ ids, s.read id.text = .ok none ∨ ∃ g, IsStored s { id := id, graph := g }

theorem not_someUnread_iff {fleet : Fleet} {ids : List RouteId} :
    ¬ SomeUnread fleet ids ↔ AllRead fleet.store ids := by
  constructor
  · intro hread id hid
    rcases outcome_load_cases id fleet with ⟨e, hload⟩ | ⟨-, hnone⟩ | ⟨g, -, hstored⟩
    · exact absurd ⟨id, hid, _, congrArg Prod.fst hload⟩ hread
    · exact .inl hnone
    · exact .inr ⟨g, hstored⟩
  · rintro hall ⟨id, hid, e, he⟩
    rcases hall id hid with hnone | ⟨g, hstored⟩
    · rw [outcome_load_of_gone hnone] at he
      exact nomatch he
    · rw [outcome_load_of_isStored hstored] at he
      exact nomatch he

section Listing

variable {fleet : Fleet} {ids : List RouteId}

/-- Where the folder can be listed, the routes are loaded in turn. -/
theorem outcome_list_of_ok (hlist : fleet.store.list = .ok ids) :
    outcome list fleet = outcome (loadAll ids) fleet :=
  outcome_bind_ok (outcome_look_ok hlist)

/-- If one route cannot be read, none is listed. -/
theorem outcome_list_of_someUnread (hlist : fleet.store.list = .ok ids) (h : SomeUnread fleet ids) :
    ∃ e, outcome list fleet = (.error e, fleet) := by
  obtain ⟨id, hid, e, he⟩ := h
  obtain ⟨e', hall⟩ := outcome_loadAll_error hid he
  exact ⟨e', (outcome_list_of_ok hlist).trans hall⟩

/-- If all are listed, all could be read. -/
theorem allRead_of_list {after : Fleet} {rs : List StoredRoute} (hlist : fleet.store.list = .ok ids)
    (h : outcome list fleet = (.ok rs, after)) : AllRead fleet.store ids := by
  rw [← not_someUnread_iff]
  intro hunread
  obtain ⟨e, he⟩ := outcome_list_of_someUnread hlist hunread
  exact nomatch he.symm.trans h

/-- If all routes can be read, all are listed that are not gone. -/
theorem outcome_list_of_not_someUnread (hlist : fleet.store.list = .ok ids)
    (h : ¬ SomeUnread fleet ids) :
    ∃ rs, outcome list fleet = (.ok rs, fleet) ∧ IsLoaded fleet.store ids rs := by
  have hall : ∀ id ∈ ids, ∃ found, (outcome (load id) fleet).1 = .ok found := by
    intro id hid
    cases hload : (outcome (load id) fleet).1 with
    | error e => exact absurd ⟨id, hid, e, hload⟩ h
    | ok found => exact ⟨found, rfl⟩
  obtain ⟨rs, hrs⟩ := exists_outcome_loadAll hall
  exact ⟨rs, (outcome_list_of_ok hlist).trans hrs, isLoaded_of_outcome hrs⟩

/-- Where the folder is at hand, all routes are read before something is done with them, or none. -/
theorem outcome_list_cases (hlist : fleet.store.list = .ok ids) :
    (∃ e, outcome list fleet = (.error e, fleet)) ∨
      ∃ rs, outcome list fleet = (.ok rs, fleet) ∧ IsLoaded fleet.store ids rs := by
  by_cases hread : SomeUnread fleet ids
  · exact .inl (outcome_list_of_someUnread hlist hread)
  · exact .inr (outcome_list_of_not_someUnread hlist hread)

/-- What is listed together is loaded from a folder at hand. -/
theorem isLoaded_of_outcome_list {after : Fleet} {rs : List StoredRoute}
    (h : outcome list fleet = (.ok rs, after)) : after = fleet ∧ ∃ entries ids,
      fleet.store.content = .ok entries ∧ fleet.store.list = .ok ids ∧ IsLoaded fleet.store ids rs := by
  refine ⟨(keeps_list _).eq_of_outcome h, ?_⟩
  cases hlist : fleet.store.list with
  | error cause =>
    have hfail : outcome list fleet = (.error (.store cause), fleet) :=
      outcome_bind_error (outcome_look_error hlist)
    exact nomatch hfail.symm.trans h
  | ok ids =>
    obtain ⟨entries, hentries⟩ := Store.exists_entries_of_list hlist
    exact ⟨entries, ids, hentries, rfl, isLoaded_of_outcome ((outcome_list_of_ok hlist).symm.trans h)⟩

end Listing

/-! ## Saving and removing -/

theorem outcome_save_cases (key : String) (g : Graph) (fleet : Fleet) :
    (∃ cause, bytesOf key g = .error cause ∧
      outcome (save key g) fleet = (.error (.store cause), fleet)) ∨
    ∃ bytes, bytesOf key g = .ok bytes ∧ outcome (save key g) fleet =
      ((fleet.store.write key bytes).1.mapError .store,
        { fleet with store := (fleet.store.write key bytes).2 }) := by
  cases hbytes : bytesOf key g with
  | error cause =>
    have hlook : outcome (look fun _ => bytesOf key g) fleet = (.error (.store cause), fleet) :=
      outcome_look_error hbytes
    exact .inl ⟨cause, rfl, outcome_bind_error hlook⟩
  | ok bytes =>
    have hlook : outcome (look fun _ => bytesOf key g) fleet = (.ok bytes, fleet) :=
      outcome_look_ok hbytes
    exact .inr ⟨bytes, rfl, outcome_bind_ok hlook⟩

theorem outcome_save_unwritable {g : Graph} (key : String) (h : ¬ g.isWritable) (fleet : Fleet) :
    outcome (save key g) fleet = (.error (.store (.unwritable key)), fleet) := by
  have hbytes : bytesOf key g = .error (.unwritable key) := by
    rw [bytesOf, Graph.toText?, if_neg h]
  exact outcome_bind_error (outcome_look_error hbytes)

theorem outcome_save_writable {g : Graph} (key : String) (h : g.isWritable = true) (fleet : Fleet) :
    ∃ bytes, bytesOf key g = .ok bytes ∧ outcome (save key g) fleet =
      ((fleet.store.write key bytes).1.mapError .store,
        { fleet with store := (fleet.store.write key bytes).2 }) := by
  have hbytes : bytesOf key g = .ok g.toValue.write.toUTF8 := by
    rw [bytesOf, Graph.toText?, if_pos h]
  exact ⟨_, hbytes, outcome_bind_ok (outcome_look_ok hbytes)⟩

section Save

variable {g : Graph} {key : String} {fleet : Fleet} {entries : Dict Entry}
  (hfit : g.isWritable = true) (hentries : fleet.store.content = .ok entries)
  (hreach : Store.IsReachable fleet.store.root key) (hfile : entries.get? (Store.fileName key) ≠ some .folder)

include hfit hentries hreach hfile

theorem outcome_save_refused (hwrites : fleet.store.refusals.writes 0 = true) :
    outcome (save key g) fleet =
      (.error (.store (.io (Path.join fleet.store.root (Store.fileName key)) .diskFull)),
        { fleet with store := fleet.store.afterWrite }) := by
  obtain ⟨bytes, -, hsave⟩ := outcome_save_writable key hfit fleet
  rw [hsave, Store.write_eq bytes hentries hreach hfile, if_pos hwrites]
  rfl

theorem outcome_save_granted (hwrites : fleet.store.refusals.writes 0 = false) :
    ∃ bytes, bytesOf key g = .ok bytes ∧ outcome (save key g) fleet = (.ok (), { fleet with
      store := fleet.store.afterWrite.withEntries
        (entries.insert (Store.fileName key) (.file bytes)) }) := by
  obtain ⟨bytes, hbytes, hsave⟩ := outcome_save_writable key hfit fleet
  refine ⟨bytes, hbytes, ?_⟩
  rw [hsave, Store.write_eq bytes hentries hreach hfile, if_neg (Bool.eq_false_iff.mp hwrites)]
  rfl

end Save

theorem outcome_remove (id : RouteId) (fleet : Fleet) : outcome (remove id) fleet =
    ((fleet.store.remove id.text).1.mapError .store,
      { fleet with store := (fleet.store.remove id.text).2 }) := rfl

theorem outcome_remove_ok {id : RouteId} {fleet : Fleet} {found : Bool} {next : Store}
    (h : fleet.store.remove id.text = (.ok found, next)) :
    outcome (remove id) fleet = (.ok found, { fleet with store := next }) := by
  rw [outcome_remove, h]
  rfl

theorem outcome_remove_error {id : RouteId} {fleet : Fleet} {cause : StoreError} {next : Store}
    (h : fleet.store.remove id.text = (.error cause, next)) :
    outcome (remove id) fleet = (.error (.store cause), { fleet with store := next }) := by
  rw [outcome_remove, h]
  rfl

/-- What is saved is written under a key that can name a file. -/
theorem outcome_save_eq_ok {key : String} {g : Graph} {fleet after : Fleet} {done : Unit}
    (h : outcome (save key g) fleet = (.ok done, after)) :
    ∃ entries bytes, fleet.store.content = .ok entries ∧ Store.IsReachable fleet.store.root key ∧
      bytesOf key g = .ok bytes ∧ after = { fleet with
        store := fleet.store.afterWrite.withEntries
          (entries.insert (Store.fileName key) (.file bytes)) } := by
  rcases outcome_save_cases key g fleet with ⟨cause, -, hsave⟩ | ⟨bytes, hbytes, hsave⟩
  · exact nomatch hsave.symm.trans h
  rcases fleet.store.write_cases key bytes with ⟨cause, hwrite⟩ | ⟨entries, hentries, hwrite⟩
  · rw [hwrite] at hsave
    exact nomatch hsave.symm.trans h
  have hreach := Store.isReachable_of_write _ _ _ (congrArg Prod.fst hwrite)
  rw [hwrite] at hsave
  obtain ⟨-, rfl⟩ := Prod.mk.inj (hsave.symm.trans h)
  exact ⟨entries, bytes, hentries, hreach, hbytes, rfl⟩

/-- After a removal that is not refused the object is gone, whether it was there or not. -/
theorem outcome_remove_eq_ok {id : RouteId} {fleet after : Fleet} {entries : Dict Entry} {found : Bool}
    (hentries : fleet.store.content = .ok entries)
    (h : outcome (remove id) fleet = (.ok found, after)) : after = { fleet with
      store := fleet.store.afterRemoval.withEntries (entries.erase id.fileName) } := by
  rcases fleet.store.remove_cases id.text with
    ⟨cause, hremove⟩ | ⟨hgone, hremove⟩ | ⟨entries', old, hentries', -, hremove⟩
  · exact nomatch (outcome_remove_error hremove).symm.trans h
  · obtain ⟨-, rfl⟩ := Prod.mk.inj ((outcome_remove_ok hremove).symm.trans h)
    have hsame : entries.erase id.fileName = entries :=
      Dict.erase_of_get?_eq_none (hgone entries hentries)
    rw [hsame, Store.withEntries, ← hentries]
    rfl
  · obtain ⟨-, rfl⟩ := Prod.mk.inj ((outcome_remove_ok hremove).symm.trans h)
    obtain rfl := Except.ok.inj (hentries.symm.trans hentries')
    rfl

/-! ## New identities -/

/-- An identity that is free is made from the name and one of the tags, and nothing lies there. -/
theorem firstFree_ok {s : Store} {name : String} {tags : List Tag} {id : RouteId}
    (h : (firstFree s name tags).1 = .ok id) :
    ∃ tag, id = RouteId.ofTag name tag ∧ s.isThere id.text = .ok false := by
  induction tags with
  | nil => exact nomatch h
  | cons tag tags ih =>
    rw [firstFree] at h
    split at h
    · exact nomatch h
    · exact ih h
    · rename_i hfree
      obtain rfl := Except.ok.inj h
      exact ⟨tag, rfl, hfree⟩

/-- There is no free identity if one cannot be looked up, or if all are taken. -/
theorem firstFree_error {s : Store} {name : String} {tags : List Tag} {e : FleetError}
    (h : (firstFree s name tags).1 = .error e) :
    (∃ tag ∈ tags, ∃ cause, s.isThere (RouteId.ofTag name tag).text = .error cause ∧
      e = .store cause) ∨
    ((∀ tag ∈ tags, s.isThere (RouteId.ofTag name tag).text = .ok true) ∧ e = .noTagLeft) := by
  induction tags with
  | nil => exact .inr ⟨List.forall_mem_nil _, (Except.error.inj h).symm⟩
  | cons tag tags ih =>
    rw [firstFree] at h
    split at h
    · rename_i cause hcause
      exact .inl ⟨tag, List.mem_cons_self, cause, hcause, (Except.error.inj h).symm⟩
    · rename_i htaken
      rcases ih h with ⟨tag', hmem, hfail⟩ | ⟨hall, rfl⟩
      · exact .inl ⟨tag', List.mem_cons_of_mem _ hmem, hfail⟩
      · exact .inr ⟨List.forall_mem_cons.mpr ⟨htaken, hall⟩, rfl⟩
    · exact nomatch h

theorem outcome_freshId (name : String) (fleet : Fleet) : outcome (freshId name) fleet =
    ((firstFree fleet.store name fleet.tags).1,
      { fleet with tags := (firstFree fleet.store name fleet.tags).2 }) := rfl

end Fleet

end RouteFleet
