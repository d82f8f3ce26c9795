import RouteFleet.Proofs.Fleet.Maintain
import RouteFleet.Proofs.Store.Order

/-! # Operations that keep order

An operation keeps order if it leaves a store in order that was (`Fleet.KeepsOrder`), however it ends
and whatever the system refuses. All operations on a fleet do: what they write is compiled or edited from
what they read, and belongs to the identity under which it is written.
-/

namespace RouteFleet

namespace Fleet

variable {α β : Type}

/-! ## Keeping order -/

/-- Whether an operation leaves a store in order and comes, if it succeeds, to what `Q` says. -/
def KeepsOrder (x : FleetM α) (Q : α → Prop) : Prop :=
  ∀ fleet, fleet.store.InOrder → (outcome x fleet).2.store.InOrder ∧
    ∀ a, (outcome x fleet).1 = .ok a → Q a

namespace KeepsOrder

variable {Q : α → Prop} {R : β → Prop}

theorem pure {a : α} (h : Q a) : KeepsOrder (pure a) Q := Maintains.pure h

theorem throw (e : FleetError) : KeepsOrder (throw e : FleetM α) Q := Maintains.throw e

theorem bind {x : FleetM α} {f : α → FleetM β} (hx : KeepsOrder x Q)
    (hf : ∀ a, Q a → KeepsOrder (f a) R) : KeepsOrder (x >>= f) R := Maintains.bind hx hf

theorem mono {x : FleetM α} {Q' : α → Prop} (h : KeepsOrder x Q) (hQ : ∀ a, Q a → Q' a) :
    KeepsOrder x Q' := Maintains.mono h hQ

theorem look {f : Store → Except StoreError α} (h : ∀ s, s.InOrder → ∀ a, f s = .ok a → Q a) :
    KeepsOrder (look f) Q := Maintains.look h

theorem act {f : Store → Except StoreError α × Store} (h : ∀ s, s.InOrder → (f s).2.InOrder) :
    KeepsOrder (act f) fun _ => True := Maintains.act h fun _ _ _ _ => trivial

end KeepsOrder

/-! ## Reading and writing -/

/-- A route that is stored in order. -/
def IsKept (r : StoredRoute) : Prop := r.id.IsMade ∧ r.graph.BelongsTo r.id

theorem objectKey_ne_text {id : RouteId} (h : id.IsMade) : id.text ≠ SharedMiddlewares.objectKey := by
  intro heq
  have hlegacy : (RouteId.mk SharedMiddlewares.objectKey).isLegacy = true := by decide
  rw [← heq] at hlegacy
  exact absurd (h.isLegacy_eq_false.symm.trans hlegacy) (by decide)

theorem keepsOrder_save {id : RouteId} {g : Graph} (hid : id.IsMade) (hg : g.BelongsTo id) :
    KeepsOrder (save id.text g) fun _ => True := by
  refine KeepsOrder.bind (Q := id.Holds) (KeepsOrder.look fun s _ bytes hbytes => ?_) fun bytes hholds => ?_
  · obtain ⟨bytes', hwrite, hread⟩ := exists_bytesOf_of_managed hg.managed id.text
    obtain rfl := Except.ok.inj (hbytes.symm.trans hwrite)
    exact ⟨g, graphOf_eq_ok_iff.mp hread, hg⟩
  · exact KeepsOrder.act fun s hs => hs.write (.inr ⟨id, hid, rfl, hholds⟩)

theorem keepsOrder_writeShared (shared : SharedMiddlewares) :
    KeepsOrder (writeShared shared) fun _ => True := by
  refine KeepsOrder.bind (Q := fun _ => True) (KeepsOrder.look fun _ _ _ _ => trivial) fun bytes _ => ?_
  exact KeepsOrder.act fun s hs => hs.write (.inl rfl)

theorem keepsOrder_remove (id : RouteId) : KeepsOrder (remove id) fun _ => True :=
  KeepsOrder.act fun _ hs => hs.remove id.text

theorem keepsOrder_load (id : RouteId) : KeepsOrder (load id) fun found => ∀ g, found = some g →
    id.text = SharedMiddlewares.objectKey ∨ IsKept { id := id, graph := g } := by
  refine KeepsOrder.bind (Q := fun found => ∀ bytes, found = some bytes →
    id.text = SharedMiddlewares.objectKey ∨ (id.IsMade ∧ id.Holds bytes)) ?_ fun found hfound => ?_
  · refine KeepsOrder.look fun s hs found hread bytes hbytes => ?_
    exact hs.cases_of_read (hbytes ▸ hread)
  · cases found with
    | none => exact KeepsOrder.pure fun g hg => nomatch hg
    | some bytes =>
      refine KeepsOrder.bind (Q := fun g => Graph.ofBytes? bytes = some g) ?_ fun g hg => ?_
      · exact KeepsOrder.look fun s _ g hg => graphOf_eq_ok_iff.mp hg
      · refine KeepsOrder.pure ?_
        rintro g' ⟨⟩
        refine (hfound bytes rfl).imp_right ?_
        rintro ⟨hid, g', hread, hg'⟩
        obtain rfl := Option.some.inj (hg.symm.trans hread)
        exact ⟨hid, hg'⟩

/-! ## One route -/

theorem keepsOrder_check (route : Route) : KeepsOrder (check route) fun _ => route.Valid :=
  Maintains.check route

theorem keepsOrder_checkName (name : String) (except : Option RouteId) :
    KeepsOrder (checkName name except) fun _ => True := Maintains.of_keeps (keeps_checkName _ _ _)

theorem keepsOrder_freshId {name : String} (hname : Rule.isName name = true) :
    KeepsOrder (freshId name) RouteId.IsMade := Maintains.freshId fun tag => ⟨name, tag, hname, rfl⟩

theorem keepsOrder_compile (id : RouteId) (route : Route) (previous : Option Graph) :
    KeepsOrder (compile id route previous) fun g => g.BelongsTo id := by
  intro fleet hfleet
  refine ⟨hfleet, fun g hg => ?_⟩
  replace hg : (fleet.compiler.recompile id route previous).mapError (FleetError.compile id) = .ok g := hg
  cases hcompile : fleet.compiler.recompile id route previous with
  | error e =>
    rw [hcompile] at hg
    exact nomatch hg
  | ok g' =>
    rw [hcompile] at hg
    obtain rfl := Except.ok.inj hg
    obtain ⟨users, rfl⟩ := Compiler.exists_users_of_recompile hcompile
    exact fleet.compiler.belongsTo_graphOf id route users

theorem keepsOrder_add (route : Route) : KeepsOrder (add route) IsKept := by
  refine (keepsOrder_check route).bind fun _ hvalid => ?_
  refine (keepsOrder_checkName route.name none).bind fun _ _ => ?_
  refine (keepsOrder_freshId hvalid.name).bind fun id hid => ?_
  refine (keepsOrder_compile id route none).bind fun g hg => ?_
  refine (keepsOrder_save hid hg).bind fun _ _ => ?_
  exact KeepsOrder.pure ⟨hid, hg⟩

theorem keepsOrder_nextId (current : RouteId) {name : String} (hname : Rule.isName name = true) :
    KeepsOrder (nextId current name) fun id => (id = current ∧ current.name = name) ∨ id.IsMade :=
  Maintains.nextId (fun heq => .inl ⟨rfl, heq⟩) fun tag => .inr ⟨name, tag, hname, rfl⟩

/-- What a route's name may not be. -/
theorem isName_name_objectKey : Rule.isName (RouteId.mk SharedMiddlewares.objectKey).name = false := by
  decide

theorem keepsOrder_update (route : Route) : KeepsOrder (update route) IsKept := by
  unfold update
  split
  · exact KeepsOrder.throw _
  rename_i current _
  refine (keepsOrder_check route).bind fun _ hvalid => ?_
  refine (keepsOrder_load current).bind fun found hfound => ?_
  split
  · exact KeepsOrder.throw _
  rename_i previous
  refine (keepsOrder_nextId current hvalid.name).bind fun id hid => ?_
  -- The shared object has no valid name, so it never becomes a route.
  have hmade : id.IsMade := by
    rcases hid with ⟨rfl, hname⟩ | hid
    · rcases hfound previous rfl with hshared | hkept
      · obtain rfl : id = ⟨SharedMiddlewares.objectKey⟩ := congrArg RouteId.mk hshared
        have hvalidName := hvalid.name
        rw [← hname, isName_name_objectKey] at hvalidName
        exact nomatch hvalidName
      · exact hkept.1
    · exact hid
  refine (keepsOrder_compile id route (some previous)).bind fun g hg => ?_
  refine (keepsOrder_save hmade hg).bind fun _ _ => ?_
  have hdone : KeepsOrder (pure { id := id, graph := g } : FleetM StoredRoute) IsKept :=
    KeepsOrder.pure ⟨hmade, hg⟩
  split
  · refine KeepsOrder.bind (Q := fun _ => True) ?_ fun _ _ => hdone
    exact (keepsOrder_remove current).bind fun _ _ => KeepsOrder.pure trivial
  · exact hdone

theorem keepsOrder_delete (id : RouteId) : KeepsOrder (delete id) fun _ => True := by
  refine (keepsOrder_remove id).bind fun removed _ => ?_
  split
  · exact KeepsOrder.pure trivial
  · exact KeepsOrder.throw _

/-! ## All routes -/

theorem keepsOrder_loadAll {ids : List RouteId} (h : ∀ id ∈ ids, id.IsMade) :
    KeepsOrder (loadAll ids) fun rs => ∀ r ∈ rs, IsKept r := by
  refine Maintains.loadAll fun id hid => (keepsOrder_load id).mono fun found hfound g hg => ?_
  exact (hfound g hg).resolve_left (objectKey_ne_text (h id hid))

theorem keepsOrder_list : KeepsOrder list fun rs => ∀ r ∈ rs, IsKept r := by
  refine KeepsOrder.bind (Q := fun ids => ∀ id ∈ ids, id.IsMade) ?_ fun ids hids =>
    keepsOrder_loadAll hids
  refine KeepsOrder.look fun s hs ids hids => ?_
  obtain ⟨ids', hids', hmade⟩ := hs.list
  obtain rfl := Except.ok.inj (hids.symm.trans hids')
  exact fun id hid => (hmade id hid).1

theorem keepsOrder_editEach {change : Graph → Graph}
    (hchange : ∀ g id, g.BelongsTo id → (change g).BelongsTo id) {rs : List StoredRoute}
    (h : ∀ r ∈ rs, IsKept r) : KeepsOrder (editEach change rs) fun _ => True :=
  Maintains.editEach fun r hr => keepsOrder_save (h r hr).1 (hchange _ _ (h r hr).2)

theorem keepsOrder_edit {change : Graph → Graph}
    (hchange : ∀ g id, g.BelongsTo id → (change g).BelongsTo id) :
    KeepsOrder (edit change) fun _ => True :=
  keepsOrder_list.bind fun _ hrs => keepsOrder_editEach hchange hrs

theorem keepsOrder_setCertResolver (name : String) :
    KeepsOrder (setCertResolver name) fun _ => True := by
  refine (keepsOrder_edit fun _ _ h => h.pointAt name).bind fun count _ => ?_
  exact fun fleet hfleet => ⟨hfleet, fun _ _ => trivial⟩

theorem keepsOrder_setForwardAuth (change : ForwardAuthChange) :
    KeepsOrder (setForwardAuth change) fun _ => True :=
  keepsOrder_edit fun _ _ h => h.changeForwardAuth change

/-- There is nothing to move: no route that is stored in order is a legacy one. -/
theorem keepsOrder_migrate : KeepsOrder migrate fun moved => moved = [] := by
  refine keepsOrder_list.bind fun rs hrs => ?_
  have hnone : rs.filter (·.id.isLegacy) = [] := by
    rw [List.filter_eq_nil_iff]
    intro r hr hlegacy
    rw [(hrs r hr).1.isLegacy_eq_false] at hlegacy
    exact nomatch hlegacy
  rw [hnone]
  exact KeepsOrder.pure rfl

end Fleet

end RouteFleet
