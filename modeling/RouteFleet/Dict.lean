import RouteFleet.Text.Order

/-! # Dictionaries with text keys

A `Dict α` is a finite map from text to `α`, kept as its entries in strictly ascending key order.
The order is part of the type, so two dictionaries with the same look-ups are equal
(`Dict.ext_get?`), and whatever walks a dictionary meets its keys in one fixed order.

Main statements: `get?_insert`, `get?_map`, `ext_get?`.
-/

namespace RouteFleet

open Text

universe u v

/-- A finite map from text keys, its entries in strictly ascending order of their keys. -/
structure Dict (α : Type u) where
  entries : List (String × α)
  ascending : entries.Pairwise (fun a b => Before a.1 b.1)
deriving DecidableEq

namespace Dict

variable {α : Type u} {β : Type v}

/-! ## Entries in ascending order -/

/-- Enters `k ↦ v` into a list of ascending entries, replacing what `k` named before. -/
def insertEntry (k : String) (v : α) : List (String × α) → List (String × α)
  | [] => [(k, v)]
  | (k', v') :: rest =>
    if Before k k' then (k, v) :: (k', v') :: rest
    else if k = k' then (k, v) :: rest
    else (k', v') :: insertEntry k v rest

/-- The value that a list of entries holds for `k`. -/
def findEntry (k : String) : List (String × α) → Option α
  | [] => none
  | (k', v') :: rest => if k = k' then some v' else findEntry k rest

theorem mem_insertEntry {k : String} {v : α} {e : String × α} {l : List (String × α)}
    (h : e ∈ insertEntry k v l) : e = (k, v) ∨ e ∈ l := by
  induction l with
  | nil => simpa [insertEntry] using h
  | cons head rest ih =>
    obtain ⟨k', v'⟩ := head
    rw [insertEntry] at h
    split at h
    · simpa using h
    · split at h
      · rcases List.mem_cons.mp h with h | h
        · exact .inl h
        · exact .inr (List.mem_cons_of_mem _ h)
      · rcases List.mem_cons.mp h with h | h
        · exact .inr (h ▸ List.mem_cons_self)
        · exact (ih h).imp id (List.mem_cons_of_mem _)

theorem ascending_insertEntry (k : String) (v : α) {l : List (String × α)}
    (h : l.Pairwise (fun a b => Before a.1 b.1)) :
    (insertEntry k v l).Pairwise (fun a b => Before a.1 b.1) := by
  induction l with
  | nil => simp [insertEntry]
  | cons head rest ih =>
    obtain ⟨k', v'⟩ := head
    rw [List.pairwise_cons] at h
    rw [insertEntry]
    split
    · rename_i hlt
      refine List.pairwise_cons.mpr ⟨fun e he => ?_, List.pairwise_cons.mpr h⟩
      rcases List.mem_cons.mp he with rfl | he
      · exact hlt
      · exact hlt.trans (h.1 e he)
    · split
      · rename_i heq
        subst heq
        exact List.pairwise_cons.mpr ⟨h.1, h.2⟩
      · rename_i hlt hne
        refine List.pairwise_cons.mpr ⟨fun e he => ?_, ih h.2⟩
        rcases mem_insertEntry he with rfl | he
        · exact before_of_not_before hlt hne
        · exact h.1 e he

theorem findEntry_insertEntry (k k' : String) (v : α) (l : List (String × α)) :
    findEntry k' (insertEntry k v l) = if k' = k then some v else findEntry k' l := by
  induction l with
  | nil => simp [insertEntry, findEntry]
  | cons head rest ih =>
    obtain ⟨k₀, v₀⟩ := head
    rw [insertEntry]
    split
    · simp [findEntry]
    · split
      · rename_i heq
        subst heq
        by_cases hk : k' = k <;> simp [findEntry, hk]
      · rename_i hne
        by_cases hk : k' = k
        · subst hk
          simp [findEntry, hne, ih]
        · simp [findEntry, hk, ih]

theorem findEntry_eq_some_iff {k : String} {v : α} {l : List (String × α)}
    (h : l.Pairwise (fun a b => Before a.1 b.1)) : findEntry k l = some v ↔ (k, v) ∈ l := by
  induction l with
  | nil => simp [findEntry]
  | cons head rest ih =>
    obtain ⟨k', v'⟩ := head
    rw [List.pairwise_cons] at h
    by_cases hk : k = k'
    · subst hk
      simp only [findEntry, if_pos, Option.some.injEq, List.mem_cons, Prod.mk.injEq, true_and]
      refine ⟨fun h => .inl h.symm, fun h' => h'.elim Eq.symm fun hm => ?_⟩
      exact absurd (h.1 _ hm) (not_before_self _)
    · simp [findEntry, hk, ih h.2]

/-! ## Operations -/

/-- The dictionary without entries. -/
def empty : Dict α := ⟨[], List.Pairwise.nil⟩

instance : Inhabited (Dict α) := ⟨empty⟩

instance : EmptyCollection (Dict α) := ⟨empty⟩

/-- The value under `k`. -/
def get? (d : Dict α) (k : String) : Option α := findEntry k d.entries

/-- Puts `v` under `k`, replacing what was there. -/
def insert (d : Dict α) (k : String) (v : α) : Dict α :=
  ⟨insertEntry k v d.entries, ascending_insertEntry k v d.ascending⟩

/-- Whether there is a value under `k`. -/
def contains (d : Dict α) (k : String) : Bool := (d.get? k).isSome

/-- Keeps the entries that `p` accepts. -/
def filter (p : String → α → Bool) (d : Dict α) : Dict α :=
  ⟨d.entries.filter (fun e => p e.1 e.2), d.ascending.filter _⟩

/-- Drops the value under `k`, if there is one. -/
def erase (d : Dict α) (k : String) : Dict α :=
  d.filter fun key _ => key != k

/-- Applies `f` to each value; the keys stay. -/
def map (f : α → β) (d : Dict α) : Dict β :=
  ⟨d.entries.map (fun e => (e.1, f e.2)),
    List.pairwise_map.mpr d.ascending⟩

/-- The entries of a list, of several with one key the last. -/
def ofList (l : List (String × α)) : Dict α :=
  l.foldl (fun d e => d.insert e.1 e.2) empty

/-- The entries in ascending order of their keys. -/
def toList (d : Dict α) : List (String × α) := d.entries

/-- The keys in ascending order. -/
def keys (d : Dict α) : List String := d.entries.map (·.1)

/-- The values in the order of their keys. -/
def values (d : Dict α) : List α := d.entries.map (·.2)

/-- How many keys have a value. -/
def size (d : Dict α) : Nat := d.entries.length

/-- Whether no key has a value. -/
def isEmpty (d : Dict α) : Bool := d.entries.isEmpty

/-! ## Look-up after each operation -/

@[simp] theorem get?_empty (k : String) : (empty : Dict α).get? k = none := rfl

@[simp] theorem get?_insert (d : Dict α) (k k' : String) (v : α) :
    (d.insert k v).get? k' = if k' = k then some v else d.get? k' :=
  findEntry_insertEntry k k' v d.entries

theorem get?_eq_some_iff {d : Dict α} {k : String} {v : α} :
    d.get? k = some v ↔ (k, v) ∈ d.entries :=
  findEntry_eq_some_iff d.ascending

@[simp] theorem get?_map (f : α → β) (d : Dict α) (k : String) :
    (d.map f).get? k = (d.get? k).map f := by
  obtain ⟨l, h⟩ := d
  simp only [map, get?]
  induction l with
  | nil => rfl
  | cons head rest ih =>
    obtain ⟨k', v'⟩ := head
    by_cases hk : k = k'
    · simp [findEntry, hk]
    · simpa [findEntry, hk] using ih (List.pairwise_cons.mp h).2

@[simp] theorem contains_iff {d : Dict α} {k : String} :
    d.contains k = true ↔ ∃ v, d.get? k = some v := by
  simp [contains, Option.isSome_iff_exists]

@[simp] theorem get?_erase (d : Dict α) (k k' : String) :
    (d.erase k).get? k' = if k' = k then none else d.get? k' := by
  obtain ⟨l, h⟩ := d
  simp only [erase, filter, get?]
  induction l with
  | nil => simp [findEntry]
  | cons head rest ih =>
    obtain ⟨k₀, v₀⟩ := head
    have ih := ih (List.pairwise_cons.mp h).2
    by_cases hk : k₀ = k
    · subst hk
      by_cases hk' : k' = k₀
      · subst hk'
        simpa [findEntry] using ih
      · simpa [findEntry, hk'] using ih
    · by_cases hk' : k' = k₀
      · subst hk'
        simp [findEntry, hk]
      · simpa [findEntry, hk, hk'] using ih

/-- What is there after an entry was put in is that entry, or was there before. -/
theorem cases_of_get?_insert {d : Dict α} {k k' : String} {v w : α}
    (h : (d.insert k v).get? k' = some w) : (k' = k ∧ w = v) ∨ d.get? k' = some w := by
  rw [get?_insert] at h
  split at h
  case isTrue hkey => exact .inl ⟨hkey, (Option.some.inj h).symm⟩
  case isFalse => exact .inr h

/-- What is there after an entry was dropped was there before. -/
theorem get?_of_get?_erase {d : Dict α} {k k' : String} {v : α}
    (h : (d.erase k).get? k' = some v) : d.get? k' = some v := by
  rw [get?_erase] at h
  split at h
  case isTrue => exact nomatch h
  case isFalse => exact h

/-! ## Extensionality -/

theorem ext_entries {d e : Dict α} (h : d.entries = e.entries) : d = e := by
  cases d; cases e; cases h; rfl

/-- Two lists of ascending entries with the same members are the same list. -/
theorem entries_ext {l m : List (String × α)} (hl : l.Pairwise (fun a b => Before a.1 b.1))
    (hm : m.Pairwise (fun a b => Before a.1 b.1)) (h : ∀ e, e ∈ l ↔ e ∈ m) : l = m := by
  induction l generalizing m with
  | nil =>
    cases m with
    | nil => rfl
    | cons head rest => exact absurd ((h head).mpr List.mem_cons_self) (by simp)
  | cons a l ih =>
    cases m with
    | nil => exact absurd ((h a).mp List.mem_cons_self) (by simp)
    | cons b m =>
      rw [List.pairwise_cons] at hl hm
      have hab : a = b := by
        rcases List.mem_cons.mp ((h a).mp List.mem_cons_self) with hab | ha
        · exact hab
        · rcases List.mem_cons.mp ((h b).mpr List.mem_cons_self) with hba | hb
          · exact hba.symm
          · exact absurd ((hm.1 a ha).trans (hl.1 b hb)) (not_before_self _)
      subst hab
      refine congrArg (a :: ·) (ih hl.2 hm.2 fun e => ⟨fun he => ?_, fun he => ?_⟩)
      · rcases List.mem_cons.mp ((h e).mp (List.mem_cons_of_mem _ he)) with rfl | h'
        · exact absurd (hl.1 _ he) (not_before_self _)
        · exact h'
      · rcases List.mem_cons.mp ((h e).mpr (List.mem_cons_of_mem _ he)) with rfl | h'
        · exact absurd (hm.1 _ he) (not_before_self _)
        · exact h'

/-- A dictionary is determined by its look-ups. -/
theorem ext_get? {d e : Dict α} (h : ∀ k, d.get? k = e.get? k) : d = e := by
  refine ext_entries (entries_ext d.ascending e.ascending fun ⟨k, v⟩ => ?_)
  rw [← get?_eq_some_iff, ← get?_eq_some_iff, h]

end Dict

end RouteFleet
