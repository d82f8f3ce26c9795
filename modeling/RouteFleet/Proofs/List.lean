import Mathlib.Data.List.Forall2

/-! # Lists

What is true of lists whatever their items are: how far a test goes (`takeWhile_congr`, `exists_run_append`),
what entries have under a key (`lookup_eq_some_iff_mem`), and what comes of a list that is read item by item
(`mapM_eq_some_iff`).
-/

namespace RouteFleet

variable {α β : Type}

/-! ## Items that pass a test -/

/-- As far as a test goes depends on the test of the items that are there. -/
theorem takeWhile_congr {p q : α → Bool} {l : List α} (h : ∀ a ∈ l, p a = q a) :
    l.takeWhile p = l.takeWhile q := by
  induction l with
  | nil => rfl
  | cons a l ih =>
    obtain ⟨ha, hl⟩ := List.forall_mem_cons.mp h
    rw [List.takeWhile_cons, List.takeWhile_cons, ha, ih hl]

/-- A list begins with some items that pass a test, perhaps none, and goes on with one that does not. -/
theorem exists_run_append (p : α → Bool) (l : List α) :
    ∃ run rest, l = run ++ rest ∧ run.all p = true ∧ ∀ a ∈ rest.head?, p a = false := by
  refine ⟨l.takeWhile p, l.dropWhile p, List.takeWhile_append_dropWhile.symm, List.all_takeWhile, ?_⟩
  intro a ha
  have hnot := List.head?_dropWhile_not p l
  rwa [Option.mem_def.mp ha] at hnot

/-- Nothing is taken away by leaving out what is not there. -/
theorem filter_ne_eq_self [DecidableEq α] {l : List α} {a : α} (h : a ∉ l) : l.filter (· ≠ a) = l := by
  refine List.filter_eq_self.mpr fun b hb => decide_eq_true ?_
  rintro rfl
  exact h hb

theorem ite_singleton_sublist (condition : Bool) (a : α) :
    (if condition then [a] else []).Sublist [a] := by
  cases condition with
  | false => exact List.nil_sublist _
  | true => exact List.Sublist.refl _

/-! ## Entries under keys -/

section Lookup

variable [BEq α] [LawfulBEq α]

/-- Entries with distinct keys are looked up as they stand. -/
theorem lookup_eq_some_iff_mem {l : List (α × β)} (h : (l.map (·.1)).Nodup) {k : α} {v : β} :
    l.lookup k = some v ↔ (k, v) ∈ l := by
  constructor
  · intro hfound
    obtain ⟨before, after, rfl, -⟩ := List.lookup_eq_some_iff.mp hfound
    exact List.mem_append_right _ List.mem_cons_self
  · intro hmem
    obtain ⟨before, after, rfl⟩ := List.append_of_mem hmem
    refine List.lookup_eq_some_iff.mpr ⟨before, after, rfl, fun e he => ?_⟩
    rw [List.map_append, List.map_cons, List.nodup_append] at h
    exact bne_iff_ne.mpr (h.2.2 e.1 (List.mem_map_of_mem he) k List.mem_cons_self).symm

/-- Under distinct keys lie the values that they were put together with. -/
theorem map_lookup_zip {keys : List α} {values : List β} (h : keys.Nodup)
    (hlength : keys.length = values.length) :
    keys.map (List.lookup · (keys.zip values)) = values.map some := by
  induction keys generalizing values with
  | nil =>
    obtain rfl := List.length_eq_zero_iff.mp hlength.symm
    rfl
  | cons key keys ih =>
    cases values with
    | nil => cases hlength
    | cons value values =>
      rw [List.nodup_cons] at h
      have hfirst : List.lookup key ((key, value) :: keys.zip values) = some value :=
        List.lookup_cons_self
      have hrest : ∀ other ∈ keys, List.lookup other ((key, value) :: keys.zip values) =
          List.lookup other (keys.zip values) := by
        intro other hother
        have hne : (other == key) = false := beq_false_of_ne fun heq => h.1 (heq ▸ hother)
        rw [List.lookup_cons, hne]
      rw [List.zip_cons_cons, List.map_cons, hfirst, List.map_congr_left hrest, List.map_cons,
        ih h.2 (Nat.succ.inj hlength)]

end Lookup

/-! ## Lists that are read item by item -/

theorem mapM_eq_some_iff {f : α → Option β} {l : List α} {r : List β} :
    l.mapM f = some r ↔ List.Forall₂ (fun x y => f x = some y) l r := by
  induction l generalizing r with
  | nil =>
    constructor
    · intro h
      obtain rfl := Option.some.inj h
      exact .nil
    · rintro ⟨⟩
      rfl
  | cons x l ih =>
    simp only [List.mapM_cons, Option.bind_eq_bind, Option.bind_eq_some_iff, Option.pure_def,
      Option.some.injEq]
    constructor
    · rintro ⟨y, hy, ys, hys, rfl⟩
      exact .cons hy (ih.mp hys)
    · intro h
      cases h with
      | cons hy hys => exact ⟨_, hy, _, ih.mpr hys, rfl⟩

/-- What is read of a list is each read of one of its items. -/
theorem exists_of_mem_mapM_some {f : α → Option β} {l : List α} {r : List β} (h : l.mapM f = some r)
    {y : β} (hy : y ∈ r) : ∃ x ∈ l, f x = some y := by
  induction mapM_eq_some_iff.mp h with
  | nil => exact absurd hy List.not_mem_nil
  | @cons x z l r hx hrest ih =>
    rcases List.mem_cons.mp hy with rfl | hy
    · exact ⟨x, List.mem_cons_self, hx⟩
    · obtain ⟨w, hw, hread⟩ := ih (mapM_eq_some_iff.mpr hrest) hy
      exact ⟨w, List.mem_cons_of_mem _ hw, hread⟩

theorem mapM_eq_some_map {f : α → Option β} {g : α → β} {l : List α}
    (h : ∀ x ∈ l, f x = some (g x)) : l.mapM f = some (l.map g) := by
  rw [mapM_eq_some_iff, List.forall₂_map_right_iff, List.forall₂_same]
  exact h

/-- What is made of a list and read item by item is read back if each item is. -/
theorem mapM_map_eq_some {f : α → Option β} {write : β → α} {l : List β}
    (h : ∀ x ∈ l, f (write x) = some x) : (l.map write).mapM f = some l := by
  rw [mapM_eq_some_iff, List.forall₂_map_left_iff, List.forall₂_same]
  exact h

end RouteFleet
