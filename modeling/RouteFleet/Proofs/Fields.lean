import RouteFleet.Fields
import RouteFleet.Proofs.Dict
import RouteFleet.Proofs.List

/-! # Fields that are there

A field that is there once is found (`uniqueField?_of_mem`), and what is found was there
(`mem_of_uniqueField?`). Entries with the keys of a dictionary are read as a dictionary if and only if each of
its values is read (`Dict.ofList_mapM_iff`).
-/

namespace RouteFleet

variable {α β : Type}

/-! ## Fields -/

variable {fields : List (String × α)} {key : String}

theorem mem_of_uniqueField? {v : α} (h : uniqueField? fields key = some (some v)) :
    (key, v) ∈ fields := by
  rw [uniqueField?] at h
  split at h
  · exact nomatch h
  · rename_i f hfilter
    obtain rfl := Option.some.inj (Option.some.inj h)
    have hmem : f ∈ fields.filter (·.1 = key) := hfilter ▸ List.mem_singleton_self f
    obtain ⟨hmem, hkey⟩ := List.mem_filter.mp hmem
    rw [decide_eq_true_eq] at hkey
    exact hkey ▸ hmem
  · exact nomatch h

theorem uniqueField?_of_not_mem (h : key ∉ fields.map (·.1)) :
    uniqueField? fields key = some none := by
  have hfilter : fields.filter (·.1 = key) = [] := by
    rw [List.filter_eq_nil_iff]
    intro f hf hkey
    rw [decide_eq_true_eq] at hkey
    exact h (List.mem_map.mpr ⟨f, hf, hkey⟩)
  rw [uniqueField?, hfilter]

theorem uniqueField?_of_mem (hnodup : (fields.map (·.1)).Nodup) {v : α} (h : (key, v) ∈ fields) :
    uniqueField? fields key = some (some v) := by
  have hfilter : fields.filter (·.1 = key) = [(key, v)] := by
    induction fields with
    | nil => exact absurd h List.not_mem_nil
    | cons f fields ih =>
      rw [List.map_cons, List.nodup_cons] at hnodup
      rcases List.mem_cons.mp h with rfl | h
      · have hrest : fields.filter (·.1 = key) = [] := by
          rw [List.filter_eq_nil_iff]
          intro f hf hkey
          rw [decide_eq_true_eq] at hkey
          exact hnodup.1 (List.mem_map.mpr ⟨f, hf, hkey⟩)
        rw [List.filter_cons_of_pos (by simp), hrest]
      · have hne : f.1 ≠ key := fun hkey => hnodup.1 (List.mem_map.mpr ⟨(key, v), h, hkey.symm⟩)
        rw [List.filter_cons_of_neg (by simpa using hne)]
        exact ih hnodup.2 h
  rw [uniqueField?, hfilter]

theorem mem_otherFields {known : List String} {f : String × α} :
    f ∈ otherFields known fields ↔ f ∈ fields ∧ f.1 ∉ known := by
  rw [otherFields, List.mem_filter]
  simp

/-! ## Dictionaries that are read entry by entry -/

namespace Dict

/-- The entries of a list stay if they come in the order of a dictionary. -/
theorem entries_of_ofList {l : List (String × α)} {d : Dict α} (hkeys : l.map (·.1) = d.keys)
    (h : ofList l = d) : l = d.entries := by
  have hnodup : (l.map (·.1)).Nodup := hkeys ▸ d.nodup_keys
  refine List.ext_getElem ?_ fun i hi hi' => ?_
  · simpa [keys] using congrArg List.length hkeys
  · have hkey : l[i].1 = d.entries[i].1 := by
      have := congrArg (·[i]?) hkeys
      simpa [keys, hi, hi'] using this
    have hleft : d.get? l[i].1 = some l[i].2 :=
      h ▸ get?_ofList_of_mem hnodup (List.getElem_mem hi)
    have hright : d.get? d.entries[i].1 = some d.entries[i].2 :=
      get?_eq_some_iff.mpr (List.getElem_mem hi')
    rw [← hkey, hleft] at hright
    exact Prod.ext hkey (Option.some.inj hright)

section Reading

variable {γ : Type} {d : Dict α}

/-- What is read of a dictionary entry by entry has its keys. -/
theorem keys_of_mapM {read : β → Option γ} {write : α → β} {r : List (String × γ)}
    (h : (d.entries.map fun e => (e.1, write e.2)).mapM (fun f => (read f.2).map (f.1, ·)) = some r) :
    r.map (·.1) = d.keys := by
  rw [mapM_eq_some_iff, List.forall₂_map_left_iff] at h
  rw [keys, eq_comm, ← List.forall₂_eq_eq_eq, List.forall₂_map_left_iff, List.forall₂_map_right_iff]
  refine h.imp fun e f hf => ?_
  obtain ⟨v, -, rfl⟩ := Option.map_eq_some_iff.mp hf
  rfl

/-- A dictionary that is read entry by entry is read back if and only if each of its values is. -/
theorem ofList_mapM_iff {read : β → Option α} {write : α → β} :
    ((d.entries.map fun e => (e.1, write e.2)).mapM fun f => (read f.2).map (f.1, ·)).map ofList =
      some d ↔ ∀ v ∈ d.values, read (write v) = some v := by
  have hvalues : (∀ v ∈ d.values, read (write v) = some v) ↔
      ∀ e ∈ d.entries, (read (write e.2)).map (e.1, ·) = some e := by
    rw [values, List.forall_mem_map]
    refine forall₂_congr fun e _ => ?_
    rw [Option.map_eq_some_iff]
    refine ⟨fun h => ⟨_, h, rfl⟩, ?_⟩
    rintro ⟨v, hv, he⟩
    exact he ▸ hv
  rw [hvalues, Option.map_eq_some_iff]
  constructor
  · rintro ⟨r, hr, hofList⟩
    have hentries := entries_of_ofList (keys_of_mapM hr) hofList
    rw [mapM_eq_some_iff, List.forall₂_map_left_iff, hentries, List.forall₂_same] at hr
    exact hr
  · intro h
    exact ⟨d.entries, mapM_map_eq_some h, ofList_entries d⟩

end Reading

end Dict

end RouteFleet
