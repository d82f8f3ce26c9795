import RouteFleet.Proofs.Fleet.Outcome
import RouteFleet.Proofs.Route.Valid

/-! # What holds after an operation

An operation maintains something of the store if it still holds afterwards, however the operation ends,
and comes to what is said of its result, if it succeeds (`Fleet.Maintains`). That is so of operations in
turn if it is so of each (`Fleet.Maintains.bind`), and of the walks through some routes if it is so of
their steps.
-/

namespace RouteFleet

namespace Fleet

variable {α β : Type} {I : Store → Prop} {Q : α → Prop} {R : β → Prop}

/-- Whether an operation leaves a store of which `I` holds with `I`, and comes, if it succeeds, to what
`Q` says. -/
def Maintains (I : Store → Prop) (x : FleetM α) (Q : α → Prop) : Prop :=
  ∀ fleet, I fleet.store → I (outcome x fleet).2.store ∧ ∀ a, (outcome x fleet).1 = .ok a → Q a

namespace Maintains

/-! ## One after another -/

theorem pure {a : α} (h : Q a) : Maintains I (pure a) Q := by
  intro fleet hI
  refine ⟨hI, ?_⟩
  rintro b ⟨⟩
  exact h

theorem throw (e : FleetError) : Maintains I (throw e : FleetM α) Q := by
  intro fleet hI
  refine ⟨hI, ?_⟩
  rintro b ⟨⟩

theorem bind {x : FleetM α} {f : α → FleetM β} (hx : Maintains I x Q)
    (hf : ∀ a, Q a → Maintains I (f a) R) : Maintains I (x >>= f) R := by
  intro fleet hI
  obtain ⟨hmid, hvalue⟩ := hx fleet hI
  cases houtcome : outcome x fleet with
  | mk result mid =>
    rw [houtcome] at hmid hvalue
    cases result with
    | ok a =>
      rw [outcome_bind_ok houtcome]
      exact hf a (hvalue a rfl) mid hmid
    | error e =>
      rw [outcome_bind_error houtcome]
      refine ⟨hmid, ?_⟩
      rintro b ⟨⟩

theorem mono {x : FleetM α} {Q' : α → Prop} (h : Maintains I x Q) (hQ : ∀ a, Q a → Q' a) :
    Maintains I x Q' := fun fleet hI =>
  ⟨(h fleet hI).1, fun a ha => hQ a ((h fleet hI).2 a ha)⟩

/-- What an operation maintains holds of the store that it leaves. -/
theorem of_outcome {x : FleetM α} (h : Maintains I x Q) {fleet after : Fleet}
    {result : Except FleetError α} (hI : I fleet.store) (houtcome : outcome x fleet = (result, after)) :
    I after.store := by
  have hafter := (h fleet hI).1
  rwa [houtcome] at hafter

theorem discard {x : FleetM α} (h : Maintains I x Q) : Maintains I (discard x) fun _ => True :=
  h.bind fun _ _ => Maintains.pure trivial

theorem of_keeps {x : FleetM α} (h : Keeps Fleet.store x) : Maintains I x fun _ => True :=
  fun fleet hI => ⟨(h fleet).symm ▸ hI, fun _ _ => trivial⟩

theorem any (x : FleetM α) : Maintains (fun _ => True) x fun _ => True :=
  fun _ _ => ⟨trivial, fun _ _ => trivial⟩

/-! ## Calls -/

theorem look {f : Store → Except StoreError α} (h : ∀ s, I s → ∀ a, f s = .ok a → Q a) :
    Maintains I (look f) Q := by
  intro fleet hI
  refine ⟨hI, fun a ha => ?_⟩
  rw [outcome_look] at ha
  cases hf : f fleet.store with
  | error e =>
    rw [hf] at ha
    exact nomatch ha
  | ok b =>
    rw [hf] at ha
    obtain rfl := Except.ok.inj ha
    exact h _ hI _ hf

theorem act {f : Store → Except StoreError α × Store} (h : ∀ s, I s → I (f s).2)
    (hvalue : ∀ s, I s → ∀ a, (f s).1 = .ok a → Q a) : Maintains I (act f) Q := by
  intro fleet hI
  refine ⟨h _ hI, fun a ha => ?_⟩
  rw [outcome_act] at ha
  cases hf : (f fleet.store).1 with
  | error e =>
    rw [hf] at ha
    exact nomatch ha
  | ok b =>
    rw [hf] at ha
    obtain rfl := Except.ok.inj ha
    exact hvalue _ hI _ hf

/-! ## Walks -/

theorem check (route : Route) : Maintains I (check route) fun _ => route.Valid := by
  rw [Fleet.check]
  split
  · rename_i hvalid
    exact Maintains.pure (Route.Valid.of_isValid hvalid)
  · exact Maintains.throw _

theorem freshId {name : String} {P : RouteId → Prop} (h : ∀ tag, P (RouteId.ofTag name tag)) :
    Maintains I (freshId name) P := by
  intro fleet hI
  refine ⟨hI, fun id hid => ?_⟩
  obtain ⟨tag, rfl, -⟩ := firstFree_ok hid
  exact h tag

/-- The next identity is the present one, of the same name, or it is made from the name and a tag. -/
theorem nextId {current : RouteId} {name : String} {P : RouteId → Prop}
    (hcurrent : current.name = name → P current) (h : ∀ tag, P (RouteId.ofTag name tag)) :
    Maintains I (nextId current name) P := by
  rw [Fleet.nextId]
  split
  · rename_i hname
    exact Maintains.pure (hcurrent hname)
  · exact (Maintains.of_keeps (keeps_checkName _ _ _)).bind fun _ _ => Maintains.freshId h

theorem loadAll {ids : List RouteId} {P : StoredRoute → Prop}
    (h : ∀ id ∈ ids, Maintains I (load id) fun found => ∀ g, found = some g → P { id := id, graph := g }) :
    Maintains I (loadAll ids) fun rs => ∀ r ∈ rs, P r := by
  induction ids with
  | nil => exact Maintains.pure (List.forall_mem_nil _)
  | cons id ids ih =>
    rw [List.forall_mem_cons] at h
    rw [Fleet.loadAll]
    refine h.1.bind fun found hfound => ?_
    split
    · exact ih h.2
    · refine (ih h.2).bind fun rs hrs => Maintains.pure (List.forall_mem_cons.mpr ⟨?_, hrs⟩)
      exact hfound _ rfl

theorem editEach {change : Graph → Graph} {rs : List StoredRoute}
    (h : ∀ r ∈ rs, Maintains I (save r.id.text (change r.graph)) fun _ => True) :
    Maintains I (editEach change rs) fun _ => True := by
  induction rs with
  | nil => exact Maintains.pure trivial
  | cons r rs ih =>
    rw [List.forall_mem_cons] at h
    rw [Fleet.editEach]
    split
    · exact ih h.2
    · refine h.1.bind fun _ _ => ?_
      exact (ih h.2).bind fun _ _ => Maintains.pure trivial

end Maintains

end Fleet

end RouteFleet
