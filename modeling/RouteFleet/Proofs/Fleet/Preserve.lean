import RouteFleet.Proofs.Fleet.Run

/-! # What operations preserve

What each operation preserves, however it ends, any operations do (`Fleet.preserves_run`). An operation
writes and removes nothing but the object that it is told to change, those of listed routes, and new ones
(`Operation.target?`). So whatever holds of a store still after such calls is preserved by it
(`Fleet.Guards.perform`); and whatever holds still after each call is preserved by all operations
(`Fleet.Robust.perform`).
-/

namespace RouteFleet

/-- The identity of the object that an operation is told to change. -/
def Operation.target? : Operation → Option RouteId
  | .update route => route.id
  | .delete id => some id
  | .writeShared _ => some ⟨SharedMiddlewares.objectKey⟩
  | .add _ | .setCertResolver _ | .setForwardAuth _ | .migrate => none

namespace Fleet

variable {α β : Type} {I : Store → Prop} {P : RouteId → Prop}

/-! ## One after another -/

/-- Whether something holds of the store still after an operation, however it ends. -/
def Preserves (I : Store → Prop) (x : FleetM α) : Prop :=
  ∀ fleet, I fleet.store → I (outcome x fleet).2.store

theorem Maintains.preserves {x : FleetM α} {Q : α → Prop} (h : Maintains I x Q) : Preserves I x :=
  fun fleet hI => (h fleet hI).1

namespace Preserves

theorem maintains {x : FleetM α} (h : Preserves I x) : Maintains I x fun _ => True :=
  fun fleet hI => ⟨h fleet hI, fun _ _ => trivial⟩

theorem of_keeps {x : FleetM α} (h : Keeps Fleet.store x) : Preserves I x :=
  (Maintains.of_keeps h).preserves

theorem bind {x : FleetM α} {f : α → FleetM β} (hx : Preserves I x) (hf : ∀ a, Preserves I (f a)) :
    Preserves I (x >>= f) := (hx.maintains.bind fun a _ => (hf a).maintains).preserves

theorem discard {x : FleetM α} (h : Preserves I x) : Preserves I (discard x) :=
  h.maintains.discard.preserves

theorem act {f : Store → Except StoreError α × Store} (h : ∀ s, I s → I (f s).2) :
    Preserves I (act f) := fun fleet hI => h fleet.store hI

end Preserves

/-- What each operation preserves any operations do. -/
theorem preserves_run (h : ∀ operation, Preserves I (perform operation)) (operations : List Operation)
    {fleet : Fleet} (hI : I fleet.store) : I (run operations fleet).store := by
  induction operations generalizing fleet with
  | nil => exact hI
  | cons operation operations ih => exact ih (h operation fleet hI)

/-- What holds after operations and did not before came to hold with one of them. -/
theorem exists_split_of_run {operations : List Operation} {fleet : Fleet} (hbefore : ¬ I fleet.store)
    (hafter : I (run operations fleet).store) : ∃ before operation later,
      operations = before ++ operation :: later ∧ ¬ I (run before fleet).store ∧
        I (run (before ++ [operation]) fleet).store := by
  induction operations generalizing fleet with
  | nil => exact absurd hafter hbefore
  | cons operation operations ih =>
    by_cases hnext : I (outcome (perform operation) fleet).2.store
    · exact ⟨[], operation, operations, rfl, hbefore, hnext⟩
    · obtain ⟨before, later, rest, rfl, hnot, hholds⟩ := ih hnext hafter
      exact ⟨operation :: before, later, rest, rfl, hnot, hholds⟩

/-! ## Calls -/

/-- Whether something holds of a store still after each call that changes the object under one of some
identities; those that are listed are among them, and those that are made from a name and a tag. -/
structure Guards (I : Store → Prop) (P : RouteId → Prop) : Prop where
  write : ∀ s id bytes, P id → I s → I (s.write id.text bytes).2
  remove : ∀ s id, P id → I s → I (s.remove id.text).2
  listed : ∀ s ids, I s → s.list = .ok ids → ∀ id ∈ ids, P id
  made : ∀ name tag, P (RouteId.ofTag name tag)

namespace Guards

theorem save (h : Guards I P) {id : RouteId} (hid : P id) (g : Graph) :
    Maintains I (save id.text g) fun _ => True := by
  refine (Maintains.of_keeps (Keeps.look _)).bind fun bytes _ => ?_
  exact Maintains.act (fun s => h.write s id bytes hid) fun _ _ _ _ => trivial

theorem removal (h : Guards I P) {id : RouteId} (hid : P id) :
    Maintains I (Fleet.remove id) fun _ => True :=
  Maintains.act (fun s => h.remove s id hid) fun _ _ _ _ => trivial

theorem list (h : Guards I P) : Maintains I list fun rs => ∀ r ∈ rs, P r.id := by
  refine (Maintains.look fun s hI ids => h.listed s ids hI).bind fun ids hids => ?_
  refine Maintains.loadAll fun id hid => ?_
  exact (Maintains.of_keeps (keeps_load _ id)).mono fun _ _ _ _ => hids id hid

theorem add (h : Guards I P) (route : Route) : Maintains I (add route) fun _ => True := by
  refine (Maintains.check route).bind fun _ _ => ?_
  refine (Maintains.of_keeps (keeps_checkName _ _ _)).bind fun _ _ => ?_
  refine (Maintains.freshId (h.made route.name)).bind fun id hid => ?_
  refine (Maintains.of_keeps (keeps_compile _ id route none)).bind fun g _ => ?_
  exact (h.save hid g).bind fun _ _ => Maintains.pure trivial

theorem update (h : Guards I P) (route : Route) (htarget : ∀ id, route.id = some id → P id) :
    Maintains I (update route) fun _ => True := by
  unfold Fleet.update
  split
  · exact Maintains.throw _
  rename_i current hcurrent
  refine (Maintains.check route).bind fun _ _ => ?_
  refine (Maintains.of_keeps (keeps_load _ current)).bind fun found _ => ?_
  split
  · exact Maintains.throw _
  rename_i previous
  have htarget := htarget current hcurrent
  refine (Maintains.nextId (fun _ => htarget) (h.made route.name)).bind fun id hid => ?_
  refine (Maintains.of_keeps (keeps_compile _ id route (some previous))).bind fun g _ => ?_
  refine (h.save hid g).bind fun _ _ => ?_
  split
  · exact (h.removal htarget).discard.bind fun _ _ => Maintains.pure trivial
  · exact Maintains.pure trivial

theorem delete (h : Guards I P) {id : RouteId} (hid : P id) :
    Maintains I (delete id) fun _ => True := by
  refine (h.removal hid).bind fun found _ => ?_
  split
  · exact Maintains.pure trivial
  · exact Maintains.throw _

theorem edit (h : Guards I P) (change : Graph → Graph) : Maintains I (edit change) fun _ => True :=
  h.list.bind fun _ hrs => Maintains.editEach fun r hr => h.save (hrs r hr) _

theorem setCertResolver (h : Guards I P) (name : String) :
    Maintains I (setCertResolver name) fun _ => True := by
  refine (h.edit _).bind fun count _ => ?_
  exact fun fleet hI => ⟨hI, fun _ _ => trivial⟩

theorem moveEach (h : Guards I P) {rs : List StoredRoute} (hrs : ∀ r ∈ rs, P r.id) :
    Maintains I (moveEach rs) fun _ => True := by
  induction rs with
  | nil => exact Maintains.pure trivial
  | cons r rs ih =>
    rw [List.forall_mem_cons] at hrs
    refine (Maintains.freshId (h.made _)).bind fun id hid => ?_
    refine (h.save hid _).bind fun _ _ => (h.removal hrs.1).discard.bind fun _ _ => ?_
    exact (ih hrs.2).bind fun _ _ => Maintains.pure trivial

theorem migrate (h : Guards I P) : Maintains I migrate fun _ => True :=
  h.list.bind fun _ hrs => h.moveEach fun r hr => hrs r (List.mem_filter.mp hr).1

/-- An operation preserves what holds after its calls. -/
theorem perform (h : Guards I P) (operation : Operation)
    (htarget : ∀ id, operation.target? = some id → P id) : Preserves I (perform operation) := by
  cases operation with
  | add route => exact (h.add route).discard.preserves
  | update route => exact (h.update route htarget).discard.preserves
  | delete id => exact (h.delete (htarget id rfl)).preserves
  | setCertResolver name => exact (h.setCertResolver name).discard.preserves
  | setForwardAuth change => exact (h.edit _).discard.preserves
  | migrate => exact h.migrate.discard.preserves
  | writeShared shared => exact (h.save (htarget ⟨_⟩ rfl) _).preserves

end Guards

/-- Whether something holds of a store still after each call that may change it. -/
structure Robust (I : Store → Prop) : Prop where
  write : ∀ s key bytes, I s → I (s.write key bytes).2
  remove : ∀ s key, I s → I (s.remove key).2

namespace Robust

theorem guards (h : Robust I) : Guards I fun _ => True where
  write s id bytes _ := h.write s id.text bytes
  remove s id _ := h.remove s id.text
  listed _ _ _ _ _ _ := trivial
  made _ _ := trivial

theorem perform (h : Robust I) (operation : Operation) : Preserves I (perform operation) :=
  h.guards.perform operation fun _ _ => trivial

end Robust

/-- No call leads to another folder. -/
theorem robust_root (root : String) : Robust fun s => s.root = root where
  write s key bytes h := (s.root_write key bytes).trans h
  remove s key h := (s.root_remove key).trans h

section Root

variable {fleet after : Fleet}

theorem root_add {route : Route} {result : Except FleetError StoredRoute}
    (h : outcome (add route) fleet = (result, after)) : after.store.root = fleet.store.root :=
  ((robust_root _).guards.add route).of_outcome rfl h

theorem root_update {route : Route} {result : Except FleetError StoredRoute}
    (h : outcome (update route) fleet = (result, after)) : after.store.root = fleet.store.root :=
  ((robust_root _).guards.update route fun _ _ => trivial).of_outcome rfl h

theorem root_delete {id : RouteId} {result : Except FleetError Unit}
    (h : outcome (delete id) fleet = (result, after)) : after.store.root = fleet.store.root :=
  ((robust_root _).guards.delete trivial).of_outcome rfl h

theorem root_edit {change : Graph → Graph} {result : Except FleetError Nat}
    (h : outcome (edit change) fleet = (result, after)) : after.store.root = fleet.store.root :=
  ((robust_root _).guards.edit change).of_outcome rfl h

theorem root_run (operations : List Operation) (fleet : Fleet) :
    (run operations fleet).store.root = fleet.store.root :=
  preserves_run (robust_root _).perform operations rfl

end Root

/-- No call makes the system refuse removals if it does not anyway. -/
theorem robust_removals : Robust fun s => ∀ k, s.refusals.removals k = false where
  write s key bytes h := by
    rcases s.write_cases key bytes with ⟨cause, hwrite⟩ | ⟨entries, -, hwrite⟩
    · rw [hwrite]
      exact h
    · rw [hwrite]
      exact h
  remove s key h := by
    rcases s.remove_cases key with ⟨cause, hremove⟩ | ⟨-, hremove⟩ | ⟨entries, bytes, -, -, hremove⟩
    · rw [hremove]
      exact fun k => h (k + 1)
    · rw [hremove]
      exact fun k => h (k + 1)
    · rw [hremove]
      exact fun k => h (k + 1)

end Fleet

end RouteFleet
