import RouteFleet.Dict

/-! # Dictionaries from lists

Of several entries of a list that have one key the last one counts (`Dict.get?_ofList`), so the
entries of a dictionary make up that dictionary (`Dict.ofList_entries`), and entries with distinct
keys are looked up as they stand (`Dict.get?_ofList_of_mem`).
-/

namespace RouteFleet

open Text

universe u v

namespace Dict

variable {α : Type u} {β : Type v}

/-! ## Look-up -/

theorem get?_foldl_insert (l : List (String × α)) (d : Dict α) (k : String) :
    (l.foldl (fun d e => d.insert e.1 e.2) d).get? k =
      ((l.reverse.find? (·.1 = k)).map (·.2)).or (d.get? k) := by
  induction l generalizing d with
  | nil => simp
  | cons e l ih =>
    rw [List.foldl_cons, ih, get?_insert, List.reverse_cons, List.find?_append]
    cases l.reverse.find? (·.1 = k) with
    | some f => rfl
    | none => by_cases h : k = e.1 <;> simp [h, eq_comm]

/-- The last entry with a key is the one that counts. -/
theorem get?_ofList (l : List (String × α)) (k : String) :
    (ofList l).get? k = (l.reverse.find? (·.1 = k)).map (·.2) := by
  rw [ofList, get?_foldl_insert]
  simp

/-- Entries with distinct keys are found as they stand. -/
theorem get?_ofList_of_mem {l : List (String × α)} (h : (l.map (·.1)).Nodup) {k : String} {v : α}
    (hm : (k, v) ∈ l) : (ofList l).get? k = some v := by
  rw [get?_ofList]
  induction l with
  | nil => simp at hm
  | cons e l ih =>
    rw [List.map_cons, List.nodup_cons] at h
    rw [List.reverse_cons, List.find?_append]
    rcases List.mem_cons.mp hm with rfl | hm
    · have hnone : l.reverse.find? (·.1 = k) = none := by
        rw [List.find?_eq_none]
        intro f hf
        simp only [List.mem_reverse] at hf
        simp only [decide_eq_true_eq]
        exact fun hk => h.1 (List.mem_map.mpr ⟨f, hf, hk⟩)
      simp [hnone]
    · have hsome := ih h.2 hm
      cases hf : l.reverse.find? (·.1 = k) with
      | none => simp [hf] at hsome
      | some f => simpa [hf] using hsome

theorem mem_of_get?_ofList {l : List (String × α)} {k : String} {v : α}
    (h : (ofList l).get? k = some v) : (k, v) ∈ l := by
  rw [get?_ofList, Option.map_eq_some_iff] at h
  obtain ⟨⟨k', v'⟩, hf, rfl⟩ := h
  have hk : k' = k := by simpa using List.find?_some hf
  exact hk ▸ List.mem_reverse.mp (List.mem_of_find?_eq_some hf)

theorem get?_ofList_iff {l : List (String × α)} (h : (l.map (·.1)).Nodup) {k : String} {v : α} :
    (ofList l).get? k = some v ↔ (k, v) ∈ l :=
  ⟨mem_of_get?_ofList, get?_ofList_of_mem h⟩

theorem map_ofList (f : α → β) (l : List (String × α)) :
    (ofList l).map f = ofList (l.map fun e => (e.1, f e.2)) := by
  refine ext_get? fun k => ?_
  rw [get?_map, get?_ofList, get?_ofList, ← List.map_reverse, List.find?_map, Option.map_map,
    Option.map_map]
  rfl

/-- With distinct keys the order of the entries does not matter. -/
theorem ofList_eq_of_perm {l l' : List (String × α)} (h : l.Perm l') (hnodup : (l.map (·.1)).Nodup) :
    ofList l = ofList l' := by
  have hnodup' := (h.map (·.1)).nodup_iff.mp hnodup
  refine ext_get? fun k => Option.ext fun v => ?_
  rw [get?_ofList_iff hnodup, get?_ofList_iff hnodup', h.mem_iff]

/-! ## Entries -/

theorem nodup_keys (d : Dict α) : d.keys.Nodup := by
  refine (List.pairwise_map.mpr (d.ascending.imp ?_))
  exact fun {a b} h hab => not_before_self a.1 (hab ▸ h)

@[simp] theorem ofList_entries (d : Dict α) : ofList d.entries = d := by
  refine ext_get? fun k => Option.ext fun v => ?_
  rw [get?_ofList_iff d.nodup_keys, get?_eq_some_iff]

/-- Entries with distinct keys are all there. -/
theorem perm_entries_ofList {l : List (String × α)} (hnodup : (l.map (·.1)).Nodup) :
    (ofList l).entries.Perm l := by
  have hentries : ∀ m : List (String × α), (m.map (·.1)).Nodup → m.Nodup := fun m h =>
    List.Pairwise.of_map (·.1) (fun a b hne heq => hne (congrArg (·.1) heq)) h
  refine (List.perm_ext_iff_of_nodup (hentries _ (nodup_keys (ofList l))) (hentries l hnodup)).mpr ?_
  rintro ⟨k, v⟩
  rw [← get?_eq_some_iff, get?_ofList_iff hnodup]

theorem mem_values_iff {d : Dict α} {v : α} : v ∈ d.values ↔ ∃ k, d.get? k = some v := by
  simp only [values, List.mem_map, get?_eq_some_iff, Prod.exists, exists_eq_right]

theorem mem_values_map {f : α → β} {d : Dict α} {y : β} :
    y ∈ (d.map f).values ↔ ∃ x ∈ d.values, f x = y := by
  simp only [values, map, List.map_map, List.mem_map]
  constructor
  · rintro ⟨e, he, rfl⟩
    exact ⟨e.2, ⟨e, he, rfl⟩, rfl⟩
  · rintro ⟨_, ⟨e, he, rfl⟩, rfl⟩
    exact ⟨e, he, rfl⟩

theorem mem_keys_iff {d : Dict α} {k : String} : k ∈ d.keys ↔ ∃ v, d.get? k = some v := by
  simp only [keys, List.mem_map, get?_eq_some_iff]
  constructor
  · rintro ⟨⟨k', v⟩, hmem, rfl⟩
    exact ⟨v, hmem⟩
  · rintro ⟨v, hmem⟩
    exact ⟨_, hmem, rfl⟩

theorem contains_iff_mem_keys {d : Dict α} {k : String} : d.contains k = true ↔ k ∈ d.keys := by
  rw [contains_iff, mem_keys_iff]

theorem mem_keys_ofList {l : List (String × α)} {k : String} : k ∈ (ofList l).keys ↔ k ∈ l.map (·.1) := by
  rw [mem_keys_iff]
  constructor
  · rintro ⟨v, hv⟩
    exact List.mem_map_of_mem (mem_of_get?_ofList hv)
  · intro hk
    obtain ⟨e, he, rfl⟩ := List.mem_map.mp hk
    cases hfound : (ofList l).get? e.1 with
    | some v => exact ⟨v, rfl⟩
    | none =>
      rw [get?_ofList, Option.map_eq_none_iff, List.find?_eq_none] at hfound
      exact absurd (decide_eq_true rfl) (hfound e (List.mem_reverse.mpr he))

@[simp] theorem ofList_nil : ofList ([] : List (String × α)) = empty := rfl

@[simp] theorem entries_empty : (empty : Dict α).entries = [] := rfl

@[simp] theorem isEmpty_empty : (empty : Dict α).isEmpty = true := rfl

theorem isEmpty_iff {d : Dict α} : d.isEmpty = true ↔ d = empty := by
  refine ⟨fun h => ext_entries (List.isEmpty_iff.mp h), ?_⟩
  rintro rfl
  rfl

/-- To erase what is not there changes nothing. -/
theorem erase_of_get?_eq_none {d : Dict α} {k : String} (h : d.get? k = none) : d.erase k = d := by
  refine ext_get? fun k' => ?_
  rw [get?_erase]
  split
  · rename_i hk
    exact hk ▸ h.symm
  · rfl

/-- To insert what is there changes nothing. -/
theorem insert_of_get?_eq_some {d : Dict α} {k : String} {v : α} (h : d.get? k = some v) :
    d.insert k v = d := by
  refine ext_get? fun k' => ?_
  rw [get?_insert]
  split
  · rename_i hk
    exact hk ▸ h.symm
  · rfl

end Dict

end RouteFleet
