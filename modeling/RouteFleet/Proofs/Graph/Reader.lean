import RouteFleet.Proofs.Graph.Record

/-! # Reading records

What is read of the fields of a node that does not nest too deeply is in range, and so is what is read
of a sound value. The other way round, fields that are written are read as they were: from the nodes
that are written for them, and from the values themselves.
-/

namespace RouteFleet

open Yaml Value

variable {α : Type} {d : Nat}

/-! ## What is read of nodes -/

theorem within_of_nodeEntries? {n : Node} (h : n.Within (d + 1)) {entries : List (Node × Node)}
    (hread : nodeEntries? n = some entries) : ∀ e ∈ entries, e.2.Within d := by
  unfold nodeEntries? at hread
  split at hread
  · obtain rfl := Option.some.inj hread
    cases h with
    | mapping _ _ hvalue => exact hvalue
  · split at hread
    · obtain rfl := Option.some.inj hread
      exact List.forall_mem_nil _
    · exact nomatch hread

theorem within_of_nodeFields? {n : Node} (h : n.Within (d + 1)) {fields : List (String × Node)}
    (hread : nodeFields? n = some fields) : ∀ f ∈ fields, f.2.Within d := by
  simp only [nodeFields?, Option.bind_eq_bind, Option.bind_eq_some_iff] at hread
  obtain ⟨entries, hentries, hfields⟩ := hread
  intro f hf
  obtain ⟨e, he, hkey⟩ := exists_of_mem_mapM_some hfields hf
  obtain ⟨key, -, rfl⟩ := Option.map_eq_some_iff.mp hkey
  exact within_of_nodeEntries? h hentries e he

theorem within_of_nodeItems? {n : Node} (h : n.Within (d + 1)) {items : List Node}
    (hread : nodeItems? n = some items) : ∀ m ∈ items, m.Within d := by
  unfold nodeItems? at hread
  split at hread
  · obtain rfl := Option.some.inj hread
    cases h with
    | sequence _ h => exact h
  · split at hread
    · obtain rfl := Option.some.inj hread
      exact List.forall_mem_nil _
    · exact nomatch hread

theorem exists_of_nodeField? {read : Node → Option α} {o : Option Node} {x : α}
    (h : nodeField? read o = some (some x)) : ∃ n, o = some n ∧ read n = some x := by
  have hsame : ∀ {n m : Node}, nodeIfAny? n = some (some m) → n = m := by
    intro n m hn
    unfold nodeIfAny? at hn
    split at hn
    · split at hn
      · split at hn
        · exact nomatch hn
        · exact Option.some.inj (Option.some.inj hn)
      · split at hn
        · exact nomatch hn
        · exact nomatch hn
      · exact Option.some.inj (Option.some.inj hn)
    · exact Option.some.inj (Option.some.inj hn)
  unfold nodeField? at h
  split at h
  · exact nomatch h
  · rename_i n
    split at h
    · exact nomatch h
    · exact nomatch h
    · rename_i hm
      obtain rfl := hsame hm
      obtain ⟨y, hy, hxy⟩ := Option.map_eq_some_iff.mp h
      exact ⟨n, rfl, hy.trans hxy⟩

/-- A field that is read comes of one of the fields that are there. -/
theorem exists_of_nodeField?_of_mem {read : Node → Option α} {fields : List (String × Node)}
    {key : String} {o : Option Node} {x : α} (hfields : ∀ f ∈ fields, f.2.Within d)
    (ho : uniqueField? fields key = some o) (h : nodeField? read o = some (some x)) :
    ∃ n, n.Within d ∧ read n = some x := by
  obtain ⟨n, rfl, hn⟩ := exists_of_nodeField? h
  exact ⟨n, hfields _ (mem_of_uniqueField? ho), hn⟩

theorem exists_of_mem_nodeDict? {read : Node → Option α} {n : Node} (h : n.Within (d + 1))
    {r : Dict α} (hread : nodeDict? read n = some r) {x : α} (hx : x ∈ r.values) :
    ∃ m, m.Within d ∧ read m = some x := by
  simp only [nodeDict?, Option.bind_eq_bind, Option.bind_eq_some_iff, Option.pure_def,
    Option.some.injEq] at hread
  obtain ⟨fields, hfields, entries, hentries, rfl⟩ := hread
  obtain ⟨key, hkey⟩ := Dict.mem_values_iff.mp hx
  obtain ⟨f, hf, hf'⟩ := exists_of_mem_mapM_some hentries (Dict.mem_of_get?_ofList hkey)
  obtain ⟨y, hy, heq⟩ := Option.map_eq_some_iff.mp hf'
  obtain ⟨-, rfl⟩ := Prod.mk.inj heq
  exact ⟨f.2, within_of_nodeFields? h hfields f hf, hy⟩

theorem exists_of_mem_nodeDictField? {read : Node → Option α} {fields : List (String × Node)}
    {key : String} {o : Option Node} {r : Dict α} (hfields : ∀ f ∈ fields, f.2.Within (d + 1))
    (ho : uniqueField? fields key = some o) (hread : nodeDictField? read o = some r) {x : α}
    (hx : x ∈ r.values) : ∃ m, m.Within d ∧ read m = some x := by
  cases o with
  | none =>
    obtain rfl := Option.some.inj hread
    exact absurd hx List.not_mem_nil
  | some n => exact exists_of_mem_nodeDict? (hfields _ (mem_of_uniqueField? ho)) hread hx

theorem Extra.sound_of_nodeExtra? {known : List String} {fields : List (String × Node)} {e : Extra}
    (hfields : ∀ f ∈ fields, f.2.Within d) (h : nodeExtra? known fields = some e) :
    e.Sound known d := by
  obtain ⟨entries, hentries, rfl⟩ := Option.map_eq_some_iff.mp h
  have hread : ∀ f ∈ (Dict.ofList entries).entries,
      ∃ g ∈ fields, g.1 ∉ known ∧ f.1 = g.1 ∧ g.2.toValue? false = some f.2 := by
    intro f hf
    have hmem := Dict.mem_of_get?_ofList (Dict.get?_eq_some_iff.mpr hf)
    obtain ⟨g, hg, hvalue⟩ := exists_of_mem_mapM_some hentries hmem
    obtain ⟨hg, hunknown⟩ := mem_otherFields.mp hg
    obtain ⟨v, hv, heq⟩ := Option.map_eq_some_iff.mp hvalue
    obtain ⟨hkey, rfl⟩ := Prod.mk.inj heq
    exact ⟨g, hg, hunknown, hkey.symm, hv⟩
  refine ⟨fun f hf => ?_, fun f hf => ?_, fun f hf => ?_⟩
  · obtain ⟨g, -, hunknown, hkey, -⟩ := hread f hf
    exact hkey ▸ hunknown
  · obtain ⟨g, hg, -, -, hv⟩ := hread f hf
    exact (Node.gives_of_toValue? (hfields g hg) _ hv).sound
  · obtain ⟨g, hg, -, -, hv⟩ := hread f hf
    exact (Node.gives_of_toValue? (hfields g hg) _ hv).untagged rfl

/-! ## What is read of values -/

theorem Yaml.Value.Sound.untagged {v : Value} (h : Value.Sound d v) : Value.Sound d v.untagged := by
  induction h with
  | null => exact .null
  | bool b => exact .bool b
  | number h => exact .number h
  | string s => exact .string s
  | sequence h _ => exact .sequence h
  | mapping hkey hvalue hunlike _ _ => exact .mapping hkey hvalue hunlike
  | tagged t h hcontent ih => exact ih

theorem sound_of_valueFields? {v : Value} (h : Value.Sound (d + 1) v)
    {fields : List (String × Value)} (hread : valueFields? v = some fields) :
    ∀ f ∈ fields, Value.Sound d f.2 := by
  simp only [valueFields?, Option.bind_eq_bind, Option.bind_eq_some_iff] at hread
  obtain ⟨entries, hentries, hfields⟩ := hread
  have hvalues : ∀ e ∈ entries, Value.Sound d e.2 := by
    have hunder := h.untagged
    rw [valueEntries?] at hentries
    split at hentries
    · rename_i heq
      obtain rfl := Option.some.inj hentries
      rw [heq] at hunder
      cases hunder with
      | mapping _ hvalue _ => exact hvalue
    · obtain rfl := Option.some.inj hentries
      exact List.forall_mem_nil _
    · exact nomatch hentries
  intro f hf
  obtain ⟨e, he, hkey⟩ := exists_of_mem_mapM_some hfields hf
  obtain ⟨key, -, rfl⟩ := Option.map_eq_some_iff.mp hkey
  exact hvalues e he

theorem exists_of_valueField? {read : Value → Option α} {o : Option Value} {x : α}
    (h : valueField? read o = some (some x)) : ∃ v, o = some v ∧ read v = some x := by
  unfold valueField? at h
  split at h
  · exact nomatch h
  · exact nomatch h
  · obtain ⟨y, hy, hxy⟩ := Option.map_eq_some_iff.mp h
    exact ⟨_, rfl, hy.trans hxy⟩

theorem Extra.sound_of_valueExtra? {known : List String} {fields : List (String × Value)} {e : Extra}
    (hfields : ∀ f ∈ fields, Value.Sound d f.2) (h : valueExtra? known fields = some e) :
    e.Sound known d := by
  rw [valueExtra?] at h
  split at h
  · exact nomatch h
  · rename_i hbare
    obtain rfl := Option.some.inj h
    have hmem : ∀ f ∈ (Dict.ofList (otherFields known fields)).entries,
        f ∈ otherFields known fields := fun f hf =>
      Dict.mem_of_get?_ofList (Dict.get?_eq_some_iff.mpr hf)
    refine ⟨fun f hf => (mem_otherFields.mp (hmem f hf)).2,
      fun f hf => hfields f (mem_otherFields.mp (hmem f hf)).1, fun f hf => ?_⟩
    rw [← Bool.not_eq_false', ← hasTag_eq_not_isBare]
    exact Bool.eq_false_iff.mpr fun htag => hbare (List.any_eq_true.mpr ⟨f, hmem f hf, htag⟩)

/-! ## Nodes of what is written -/

/-- What can stand in a managed field of a node. -/
inductive IsManaged : Value → Prop
  | string (s : String) : IsManaged (.string s)
  | sequence (items : List Value) : IsManaged (.sequence items)
  | mapping (entries : List (Value × Value)) : IsManaged (.mapping entries)

/-- A text is not taken for the null. -/
theorem nodeIfAny?_string (s : String) :
    nodeIfAny? ((Value.string s).toNode none) = some (some ((Value.string s).toNode none)) := by
  show nodeIfAny? (.scalar none (decide (Style.ofText s = .plain)) s) =
    some (some (.scalar none (decide (Style.ofText s = .plain)) s))
  by_cases hplain : Style.ofText s = .plain
  · have hmeaning := ofPlain_of_plain hplain
    have hnull : ¬(decide (s = "") || Meaning.isNull s) = true := by
      intro hnull
      rw [Meaning.ofPlain, if_pos (by simpa using hnull)] at hmeaning
      cases hmeaning
    rw [decide_eq_true hplain, nodeIfAny?, if_neg hnull]
  · rw [decide_eq_false hplain]
    rfl

theorem nodeIfAny?_toNode {v : Value} (h : IsManaged v) :
    nodeIfAny? (v.toNode none) = some (some (v.toNode none)) := by
  cases h with
  | string s => exact nodeIfAny?_string s
  | sequence items => rfl
  | mapping entries => rfl

theorem nodeField?_toNode {read : Node → Option α} {write : α → Value} {o : Option α}
    (hmanaged : ∀ x, IsManaged (write x)) (h : ∀ x ∈ o, read ((write x).toNode none) = some x) :
    nodeField? read ((o.map write).map (toNode none)) = some o := by
  cases o with
  | none => rfl
  | some x =>
    show nodeField? read (some ((write x).toNode none)) = _
    rw [nodeField?, nodeIfAny?_toNode (hmanaged x)]
    exact congrArg (Option.map some) (h x rfl)

@[simp] theorem nodeText?_string (s : String) : nodeText? ((Value.string s).toNode none) = some s :=
  rfl

theorem itemsToNodes_eq_map (items : List Value) : itemsToNodes items = items.map (toNode none) := by
  induction items with
  | nil => rfl
  | cons v rest ih => rw [itemsToNodes, ih, List.map_cons]

theorem entriesToNodes_asEntry (fields : List (String × Value)) :
    entriesToNodes (fields.map asEntry) =
      fields.map fun f => ((Value.string f.1).toNode none, f.2.toNode none) := by
  induction fields with
  | nil => rfl
  | cons f fields ih =>
    rw [List.map_cons, List.map_cons, ← ih]
    rfl

theorem nodeItems?_sequence {write : α → Value} (l : List α) :
    nodeItems? ((Value.sequence (l.map write)).toNode none) =
      some (l.map fun x => (write x).toNode none) := by
  show some (itemsToNodes (l.map write)) = _
  rw [itemsToNodes_eq_map, List.map_map]
  rfl

@[simp] theorem nodeTexts?_textList (l : List String) : nodeTexts? ((textList l).toNode none) = some l := by
  rw [nodeTexts?, textList, nodeItems?_sequence, Option.bind_some]
  exact mapM_map_eq_some fun s _ => rfl

theorem nodeFields?_mapping (fields : List (String × Value)) :
    nodeFields? ((Value.mapping (fields.map asEntry)).toNode none) =
      some (fields.map fun f => (f.1, f.2.toNode none)) := by
  show (entriesToNodes (fields.map asEntry)).mapM _ = _
  rw [entriesToNodes_asEntry, List.mapM_map]
  exact mapM_eq_some_map fun f _ => rfl

theorem nodeExtra?_record {l : List (String × Option Value)} {known : List String} {e : Extra}
    (he : e.Sound known d) (hl : l.map (·.1) = known) :
    nodeExtra? known ((presentFields l ++ e.entries).map fun f => (f.1, f.2.toNode none)) = some e := by
  rw [nodeExtra?, otherFields_record he hl, Dict.ofList_mapM_iff]
  intro v hv
  obtain ⟨f, hf, rfl⟩ := List.mem_map.mp hv
  exact (readsAsItself (he.sound f hf)).mpr (he.bare f hf)

theorem nodeFields?_dictValue (write : α → Value) (r : Dict α) :
    nodeFields? ((dictValue write r).toNode none) =
      some (r.entries.map fun e => (e.1, (write e.2).toNode none)) := by
  have hentries : dictValue write r =
      .mapping ((r.entries.map fun e => (e.1, write e.2)).map asEntry) := by
    rw [dictValue, List.map_map]
    rfl
  rw [hentries, nodeFields?_mapping, List.map_map]
  rfl

/-- A dictionary is read back if and only if each of its values is. -/
theorem nodeDict?_dictValue_iff {read : Node → Option α} {write : α → Value} {r : Dict α} :
    nodeDict? read ((dictValue write r).toNode none) = some r ↔
      ∀ x ∈ r.values, read ((write x).toNode none) = some x := by
  rw [nodeDict?, nodeFields?_dictValue, ← Dict.ofList_mapM_iff]
  simp only [Option.bind_eq_bind, Option.bind_some, Option.pure_def, Option.map_eq_bind]
  rfl

/-- Whatever the values of a dictionary are read as, its keys are read back. -/
theorem contains_of_nodeDict? {read : Node → Option α} {write : α → Value} {r r' : Dict α}
    (h : nodeDict? read ((dictValue write r).toNode none) = some r') (k : String) :
    r'.contains k = r.contains k := by
  rw [nodeDict?, nodeFields?_dictValue] at h
  simp only [Option.bind_eq_bind, Option.bind_some, Option.bind_eq_some_iff, Option.pure_def,
    Option.some.injEq] at h
  obtain ⟨entries, hentries, rfl⟩ := h
  have hkeys := @Dict.keys_of_mapM _ _ _ r read (fun x => (write x).toNode none) _ hentries
  rw [Bool.eq_iff_iff, Dict.contains_iff_mem_keys, Dict.contains_iff_mem_keys, Dict.mem_keys_ofList, hkeys]

/-- A field for a dictionary, if it is not empty. -/
def dictIfAny {α : Type} (write : α → Value) (r : Dict α) : Option Value :=
  if r.isEmpty then none else some (dictValue write r)

theorem nodeDictField?_dictIfAny_iff {read : Node → Option α} {write : α → Value} {r : Dict α} :
    nodeDictField? read ((dictIfAny write r).map (toNode none)) = some r ↔
      ∀ x ∈ r.values, read ((write x).toNode none) = some x := by
  rw [dictIfAny]
  split
  · rename_i hempty
    obtain rfl := Dict.isEmpty_iff.mp hempty
    exact ⟨fun _ x hx => absurd hx List.not_mem_nil, fun _ => rfl⟩
  · exact nodeDict?_dictValue_iff

theorem contains_of_nodeDictField? {read : Node → Option α} {write : α → Value} {r r' : Dict α}
    (h : nodeDictField? read ((dictIfAny write r).map (toNode none)) = some r') (k : String) :
    r'.contains k = r.contains k := by
  rw [dictIfAny] at h
  split at h
  · rename_i hempty
    obtain rfl := Dict.isEmpty_iff.mp hempty
    exact congrArg (Dict.contains · k) (Option.some.inj h).symm
  · exact contains_of_nodeDict? h k

/-! ## What is written, as values -/

theorem valueField?_write {read : Value → Option α} {write : α → Value} {o : Option α}
    (hnull : ∀ x, write x ≠ .null) (h : ∀ x ∈ o, read (write x) = some x) :
    valueField? read (o.map write) = some o := by
  cases o with
  | none => rfl
  | some x =>
    show valueField? read (some (write x)) = _
    unfold valueField?
    split
    · rename_i heq
      exact nomatch heq
    · rename_i heq
      exact absurd (Option.some.inj heq) (hnull x)
    · rename_i heq
      obtain rfl := Option.some.inj heq
      rw [h x rfl]
      rfl

@[simp] theorem valueTexts?_textList (l : List String) : valueTexts? (textList l) = some l := by
  show (l.map Value.string).mapM Value.text? = some l
  exact mapM_map_eq_some fun s _ => rfl

theorem valueFields?_mapping (fields : List (String × Value)) :
    valueFields? (.mapping (fields.map asEntry)) = some fields := by
  show (fields.map asEntry).mapM _ = _
  exact mapM_map_eq_some fun f _ => rfl

theorem valueDict?_dictValue (r : Dict String) : valueDict? (dictValue .string r) = some r := by
  have hentries : dictValue .string r =
      .mapping ((r.entries.map fun e => (e.1, Value.string e.2)).map asEntry) := by
    rw [dictValue, List.map_map]
    rfl
  have hread := (@Dict.ofList_mapM_iff _ _ r Value.text? Value.string).mpr fun s _ => rfl
  rw [valueDict?, hentries, valueFields?_mapping, ← hread]
  simp only [Option.bind_eq_bind, Option.bind_some, Option.pure_def, Option.map_eq_bind]
  rfl

theorem valueExtra?_record {l : List (String × Option Value)} {known : List String} {e : Extra}
    (he : e.Sound known d) (hl : l.map (·.1) = known) :
    valueExtra? known (presentFields l ++ e.entries) = some e := by
  have hothers := otherFields_record he hl id
  have hsame : ∀ fields : List (String × Value), fields.map (fun f => (f.1, id f.2)) = fields :=
    fun fields => List.map_id'' (fun f => rfl) fields
  rw [hsame, hsame] at hothers
  have hbare : ¬ (e.entries.any fun f => hasTag f.2) = true := by
    rw [List.any_eq_true]
    rintro ⟨f, hf, htag⟩
    rw [hasTag_eq_not_isBare, he.bare f hf] at htag
    exact nomatch htag
  rw [valueExtra?, hothers, if_neg hbare, Dict.ofList_entries]

theorem valueNat?_natValue {bound n : Nat} (h : n < bound) : valueNat? bound (natValue n) = some n := by
  show (if (decide ((0 : Int) ≤ n) && decide ((n : Int) < bound)) = true then some (n : Int).toNat
    else none) = some n
  rw [if_pos (by simp [h])]
  rfl

end RouteFleet
