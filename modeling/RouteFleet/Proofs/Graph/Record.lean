import RouteFleet.Graph.Document
import RouteFleet.Proofs.Fields
import RouteFleet.Proofs.Yaml.Content

/-! # Records

Every structure is written as a *record*: the managed fields that are there, and then what stands
beside them, under other names. A record is a sound value if its parts are (`sound_record`), and each
managed field is found again, in its node (`uniqueField?_record`) as in the value itself, and so is what
stands beside them (`nodeExtra?_record`, `valueExtra?_record`).
-/

namespace RouteFleet

open Yaml Value

/-! ## Values without tags -/

/-- Whether a value has no tag anywhere. -/
abbrev Yaml.Value.isBare (v : Value) : Bool := v.allTags fun _ => false

namespace Yaml.Value

mutual

/-- What is said of tags holds of a value that has none. -/
theorem allTags_of_isBare (p : String → Bool) : ∀ v : Value, v.isBare = true → v.allTags p = true
  | .null, _ | .bool _, _ | .number _, _ | .string _, _ => rfl
  | .sequence items, h => allTagsOfItems_of_isBare p items h
  | .mapping entries, h => allTagsOfEntries_of_isBare p entries h

theorem allTagsOfItems_of_isBare (p : String → Bool) : ∀ items : List Value,
    allTagsOfItems (fun _ => false) items = true → allTagsOfItems p items = true
  | [], _ => rfl
  | v :: rest, h => by
    rw [allTagsOfItems, Bool.and_eq_true] at h
    rw [allTagsOfItems, allTags_of_isBare p v h.1, allTagsOfItems_of_isBare p rest h.2]
    rfl

theorem allTagsOfEntries_of_isBare (p : String → Bool) : ∀ entries : List (Value × Value),
    allTagsOfEntries (fun _ => false) entries = true → allTagsOfEntries p entries = true
  | [], _ => rfl
  | (k, v) :: rest, h => by
    rw [allTagsOfEntries, Bool.and_eq_true, Bool.and_eq_true] at h
    rw [allTagsOfEntries, allTags_of_isBare p k h.1.1, allTags_of_isBare p v h.1.2,
      allTagsOfEntries_of_isBare p rest h.2]
    rfl

end

mutual

theorem hasTag_eq_not_isBare : ∀ v : Value, hasTag v = !v.isBare
  | .null | .bool _ | .number _ | .string _ | .tagged _ _ => rfl
  | .sequence items => itemsHaveTag_eq items
  | .mapping entries => entriesHaveTag_eq entries

theorem itemsHaveTag_eq : ∀ items : List Value,
    itemsHaveTag items = !allTagsOfItems (fun _ => false) items
  | [] => rfl
  | v :: rest => by
    rw [itemsHaveTag, allTagsOfItems, hasTag_eq_not_isBare v, itemsHaveTag_eq rest, Bool.not_and]

theorem entriesHaveTag_eq : ∀ entries : List (Value × Value),
    entriesHaveTag entries = !allTagsOfEntries (fun _ => false) entries
  | [] => rfl
  | (k, v) :: rest => by
    rw [entriesHaveTag, allTagsOfEntries, hasTag_eq_not_isBare k, hasTag_eq_not_isBare v,
      entriesHaveTag_eq rest, Bool.not_and, Bool.not_and]

end

theorem allTagsOfItems_eq_true {p : String → Bool} {items : List Value} :
    allTagsOfItems p items = true ↔ ∀ v ∈ items, v.allTags p = true := by
  induction items with
  | nil => exact ⟨fun _ => List.forall_mem_nil _, fun _ => rfl⟩
  | cons v rest ih => rw [allTagsOfItems, Bool.and_eq_true, ih, List.forall_mem_cons]

theorem allTagsOfEntries_eq_true {p : String → Bool} {entries : List (Value × Value)} :
    allTagsOfEntries p entries = true ↔
      ∀ e ∈ entries, e.1.allTags p = true ∧ e.2.allTags p = true := by
  induction entries with
  | nil => exact ⟨fun _ => List.forall_mem_nil _, fun _ => rfl⟩
  | cons e rest ih =>
    obtain ⟨k, v⟩ := e
    rw [allTagsOfEntries, Bool.and_eq_true, Bool.and_eq_true, ih, List.forall_mem_cons]

end Yaml.Value

/-! ## Records -/

/-- A field as an entry of a mapping. -/
def asEntry (f : String × Value) : Value × Value := (.string f.1, f.2)

/-- The fields that are there, of some that may not be. -/
def presentFields (l : List (String × Option Value)) : List (String × Value) :=
  l.flatMap fun f => (f.2.map (f.1, ·)).toList

/-- A structure of which some fields are managed. -/
def record (l : List (String × Option Value)) (e : Extra) : Value :=
  .mapping ((presentFields l ++ e.entries).map asEntry)

/-- What may stand beside managed fields. -/
structure Extra.Sound (known : List String) (d : Nat) (e : Extra) : Prop where
  unknown : ∀ f ∈ e.entries, f.1 ∉ known
  sound : ∀ f ∈ e.entries, Value.Sound d f.2
  bare : ∀ f ∈ e.entries, f.2.isBare = true

theorem fieldIfAny_eq (key : String) (o : Option Value) :
    fieldIfAny key o = (presentFields [(key, o)]).map asEntry := by
  cases o <;> rfl

theorem field_eq (key : String) (v : Value) :
    field key v = (presentFields [(key, some v)]).map asEntry := rfl

theorem extraFields_eq (e : Extra) : extraFields e = e.entries.map asEntry := rfl

theorem presentFields_append (l m : List (String × Option Value)) :
    presentFields (l ++ m) = presentFields l ++ presentFields m := List.flatMap_append

theorem mem_presentFields {l : List (String × Option Value)} {key : String} {v : Value} :
    (key, v) ∈ presentFields l ↔ (key, some v) ∈ l := by
  rw [presentFields, List.mem_flatMap]
  constructor
  · rintro ⟨⟨k, o⟩, hmem, hv⟩
    obtain ⟨w, rfl, heq⟩ : ∃ w, o = some w ∧ (k, w) = (key, v) := by
      simpa [Option.map_eq_some_iff] using hv
    obtain ⟨rfl, rfl⟩ := Prod.mk.inj heq
    exact hmem
  · exact fun h => ⟨_, h, by simp⟩

theorem keys_presentFields (l : List (String × Option Value)) :
    ((presentFields l).map (·.1)).Sublist (l.map (·.1)) := by
  induction l with
  | nil => exact .slnil
  | cons f l ih =>
    obtain ⟨key, o⟩ := f
    cases o with
    | none => exact ih.cons _
    | some v => exact ih.cons_cons _

section Record

variable {l : List (String × Option Value)} {known : List String} {d : Nat} {e : Extra}

/-- The names in a record are distinct. -/
theorem nodup_record (he : e.Sound known d) (hl : l.map (·.1) = known) (hknown : known.Nodup) :
    ((presentFields l ++ e.entries).map (·.1)).Nodup := by
  rw [List.map_append, List.nodup_append]
  refine ⟨(keys_presentFields l).nodup (hl ▸ hknown), e.nodup_keys, ?_⟩
  rintro key hkey _ hkey' rfl
  obtain ⟨f, hf, rfl⟩ := List.mem_map.mp hkey'
  exact he.unknown f hf (hl ▸ (keys_presentFields l).subset hkey)

/-! ## Soundness -/

theorem unlike_fields {fields : List (String × Value)} (h : (fields.map (·.1)).Nodup) :
    Unlike (fields.map asEntry) := by
  rw [Unlike, List.pairwise_map]
  refine (List.pairwise_map.mp h).imp fun {f g} hne => ?_
  exact decide_eq_false (Ne.symm hne)

theorem sound_record (he : e.Sound known d) (hl : l.map (·.1) = known) (hknown : known.Nodup)
    (h : ∀ f ∈ l, ∀ v ∈ f.2, Value.Sound d v) : Value.Sound (d + 1) (record l e) := by
  refine .mapping ?_ ?_ (unlike_fields (nodup_record he hl hknown))
  · intro entry hentry
    obtain ⟨f, -, rfl⟩ := List.mem_map.mp hentry
    exact .string f.1
  · intro entry hentry
    obtain ⟨⟨key, v⟩, hf, rfl⟩ := List.mem_map.mp hentry
    rcases List.mem_append.mp hf with hf | hf
    · exact h _ (mem_presentFields.mp hf) v rfl
    · exact he.sound _ hf

theorem allTags_record {p : String → Bool} :
    (record l e).allTags p = true ↔ (∀ f ∈ l, ∀ v ∈ f.2, v.allTags p = true) ∧
      ∀ f ∈ e.entries, f.2.allTags p = true := by
  rw [record, allTags, allTagsOfEntries_eq_true, List.forall_mem_map, List.forall_mem_append]
  refine and_congr ⟨fun h f hf v hv => ?_, fun h f hf => ?_⟩ ⟨fun h f hf => ?_, fun h f hf => ?_⟩
  · exact (h (f.1, v) (mem_presentFields.mpr ((Option.mem_def.mp hv) ▸ hf))).2
  · exact ⟨rfl, h _ (mem_presentFields.mp hf) f.2 rfl⟩
  · exact (h f hf).2
  · exact ⟨rfl, h f hf⟩

/-! ## Finding fields again -/

theorem uniqueField?_record (he : e.Sound known d)
    (hl : l.map (·.1) = known) (hknown : known.Nodup) {α : Type} (g : Value → α) {key : String} {o : Option Value}
    (h : (key, o) ∈ l) :
    uniqueField? ((presentFields l ++ e.entries).map fun f => (f.1, g f.2)) key =
      some (o.map g) := by
  have hkeys : ((presentFields l ++ e.entries).map fun f => (f.1, g f.2)).map (·.1) =
      (presentFields l ++ e.entries).map (·.1) := by
    rw [List.map_map]
    rfl
  cases o with
  | some v =>
    refine uniqueField?_of_mem (hkeys ▸ nodup_record he hl hknown) ?_
    exact List.mem_map.mpr ⟨(key, v), List.mem_append_left _ (mem_presentFields.mpr h), rfl⟩
  | none =>
    refine uniqueField?_of_not_mem ?_
    rw [hkeys, List.mem_map]
    rintro ⟨⟨key', v⟩, hf, rfl⟩
    rcases List.mem_append.mp hf with hf | hf
    · have hsome := mem_presentFields.mp hf
      have heq := List.inj_on_of_nodup_map (hl ▸ hknown) h hsome rfl
      exact nomatch (Prod.mk.inj heq).2
    · exact he.unknown _ hf (hl ▸ List.mem_map.mpr ⟨_, h, rfl⟩)

theorem otherFields_record (he : e.Sound known d) (hl : l.map (·.1) = known) {α : Type}
    (g : Value → α) :
    otherFields known ((presentFields l ++ e.entries).map fun f => (f.1, g f.2)) =
      e.entries.map fun f => (f.1, g f.2) := by
  have hpresent : otherFields known ((presentFields l).map fun f => (f.1, g f.2)) = [] := by
    rw [List.eq_nil_iff_forall_not_mem]
    intro f hf
    obtain ⟨hf, hunknown⟩ := mem_otherFields.mp hf
    obtain ⟨f', hf', rfl⟩ := List.mem_map.mp hf
    exact hunknown (hl ▸ (keys_presentFields l).subset (List.mem_map.mpr ⟨f', hf', rfl⟩))
  have hextra : otherFields known (e.entries.map fun f => (f.1, g f.2)) =
      e.entries.map fun f => (f.1, g f.2) := by
    rw [otherFields, List.filter_eq_self]
    intro f hf
    obtain ⟨f', hf', rfl⟩ := List.mem_map.mp hf
    simpa using he.unknown f' hf'
  rw [otherFields] at hpresent hextra ⊢
  rw [List.map_append, List.filter_append, hpresent, hextra, List.nil_append]

end Record

end RouteFleet
