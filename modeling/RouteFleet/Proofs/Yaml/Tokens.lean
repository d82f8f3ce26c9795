import RouteFleet.Proofs.Yaml.Scalar

/-! # The tokens of values

What the scanner makes of a written value, said without its text: `Value.tokens` gives the tokens of a
value at the place where it is written. Scalars and empty collections are leaves; what is written for
them stands on its line as it is (`Scan.leads_leaf`), and as a key before its colon
(`Scan.outcome_key`), together with the tags before it.
-/

namespace RouteFleet.Yaml

open Text Style

namespace Value

/-! ## Tags -/

mutual

/-- Whether all tags in a value are in a class. -/
def allTags (p : String → Bool) : Value → Bool
  | .tagged t content => p t && content.allTags p
  | .sequence items => allTagsOfItems p items
  | .mapping entries => allTagsOfEntries p entries
  | _ => true

/-- Whether all tags in some items are in a class. -/
def allTagsOfItems (p : String → Bool) : List Value → Bool
  | [] => true
  | v :: rest => v.allTags p && allTagsOfItems p rest

/-- Whether all tags in some entries are in a class. -/
def allTagsOfEntries (p : String → Bool) : List (Value × Value) → Bool
  | [] => true
  | (k, v) :: rest => k.allTags p && v.allTags p && allTagsOfEntries p rest

end

/-- Whether the scanner takes a tag as it is written. -/
def isScannable (t : String) : Bool := (markedTag t).all (!Token.isFlowMark ·)

theorem isScannable_iff {t : String} :
    isScannable t = true ↔ ∀ c ∈ markedTag t, Token.isFlowMark c = false := by
  simp [isScannable]

theorem not_isScannable_iff {t : String} :
    ¬ isScannable t = true ↔ ∃ c ∈ markedTag t, Token.isFlowMark c = true := by
  simp [isScannable]

/-! ## Leaves -/

/-- Whether a value is a scalar or an empty collection, without a tag. -/
def isLeaf : Value → Bool
  | .sequence items => items.isEmpty
  | .mapping entries => entries.isEmpty
  | .tagged _ _ => false
  | _ => true

/-- What is written for a leaf. -/
def leafText (indent : Nat) : Value → List Char
  | .sequence _ => ['[', ']']
  | .mapping _ => ['\x7b', '\x7d']
  | v => writeScalar indent v

/-- The tokens of a leaf. -/
def leafTokens : Value → List Token
  | .sequence _ => [.flowSequenceStart, .flowSequenceEnd]
  | .mapping _ => [.flowMappingStart, .flowMappingEnd]
  | v => [v.scalarToken]

/-! ## Tokens -/

mutual

/-- The tokens of a value at a place inside a mapping or, if `inMapping` does not hold, a sequence. -/
def tokens (place : Value.Place) (inMapping : Bool) : Value → List Token
  | .tagged t content => Token.ofTag t :: content.tokens .afterKey inMapping
  | .sequence items =>
    if items.isEmpty then [.flowSequenceStart, .flowSequenceEnd]
    else if inMapping && place = .afterKey then itemTokens items
    else .blockSequenceStart :: itemTokens items ++ [.blockEnd]
  | .mapping entries =>
    if entries.isEmpty then [.flowMappingStart, .flowMappingEnd]
    else .blockMappingStart :: entryTokens entries ++ [.blockEnd]
  | v => [v.scalarToken]

/-- The tokens of the items of a sequence. -/
def itemTokens : List Value → List Token
  | [] => []
  | v :: rest => .blockEntry :: v.tokens .afterMark false ++ itemTokens rest

/-- The tokens of the entries of a mapping. -/
def entryTokens : List (Value × Value) → List Token
  | [] => []
  | (k, v) :: rest => .key :: k.tokens (placeOf k) true ++
      (.value :: v.tokens (placeOf k) true ++ entryTokens rest)

end

theorem tokens_leaf {v : Value} (h : v.isLeaf = true) (place : Value.Place) (inMapping : Bool) :
    v.tokens place inMapping = v.leafTokens := by
  cases v with
  | sequence items =>
    replace h : items.isEmpty = true := h
    rw [tokens, if_pos h]
    rfl
  | mapping entries =>
    replace h : entries.isEmpty = true := h
    rw [tokens, if_pos h]
    rfl
  | tagged t content => exact absurd h (by simp [isLeaf])
  | _ => rfl

theorem allTags_leaf {v : Value} (h : v.isLeaf = true) (p : String → Bool) :
    v.allTags p = true := by
  cases v with
  | sequence items =>
    obtain rfl : items = [] := List.isEmpty_iff.mp h
    rfl
  | mapping entries =>
    obtain rfl : entries = [] := List.isEmpty_iff.mp h
    rfl
  | tagged t content => exact absurd h (by simp [isLeaf])
  | _ => rfl

theorem writeAt_leaf {v : Value} (h : v.isLeaf = true) (place : Value.Place) (inMapping : Bool)
    (indent : Nat) : writeAt place inMapping indent v = ' ' :: v.leafText (indent + 2) := by
  cases v with
  | sequence items =>
    replace h : items.isEmpty = true := h
    rw [writeAt, if_pos h]
    rfl
  | mapping entries =>
    replace h : entries.isEmpty = true := h
    rw [writeAt, if_pos h]
    rfl
  | tagged t content => exact absurd h (by simp [isLeaf])
  | _ => rfl

end Value

namespace Value

theorem isLeaf_cases {v : Value} (h : v.isLeaf = true) : v.isScalar = true ∨
    ∃ b e t u, Scan.EmptyFlow b e t u ∧ v.leafTokens = [t, u] ∧
      ∀ indent, v.leafText indent = [b, e] := by
  cases v with
  | sequence items => exact .inr ⟨_, _, _, _, .sequence, rfl, fun _ => rfl⟩
  | mapping entries => exact .inr ⟨_, _, _, _, .mapping, rfl, fun _ => rfl⟩
  | tagged t content => exact absurd h (by simp [isLeaf])
  | _ => exact .inl rfl

theorem leafText_scalar {v : Value} (h : v.isScalar = true) (indent : Nat) :
    v.leafText indent = Style.write indent v.scalarText v.style := by
  rw [← writeScalar_eq h]
  cases v <;> first | rfl | exact nomatch h

theorem leafTokens_scalar {v : Value} (h : v.isScalar = true) :
    v.leafTokens = [v.scalarToken] := by
  cases v <;> first | rfl | exact nomatch h

theorem leafText_ne_nil {v : Value} (h : v.isLeaf = true) (indent : Nat) :
    v.leafText indent ≠ [] := by
  rcases isLeaf_cases h with hv | ⟨b, e, t, u, -, -, htext⟩
  · rw [leafText_scalar hv]
    exact List.length_pos_iff.mp (length_write_pos (suits_style hv) indent)
  · rw [htext]
    exact List.cons_ne_nil _ _

/-- What is written for a leaf does not begin with a gap or a comment. -/
theorem fresh_leafText {v : Value} (h : v.isLeaf = true) (indent : Nat) (tail : List Char) :
    Scan.Fresh (v.leafText indent ++ tail) := by
  rcases isLeaf_cases h with hv | ⟨b, e, t, u, hflow, -, htext⟩
  · rw [leafText_scalar hv]
    exact fresh_write (suits_style hv) indent tail
  · rw [htext]
    cases hflow <;> exact Scan.fresh_cons.mpr (by decide)

end Value

namespace Scan

/-! ## Leaves on their lines -/

/-- An empty collection with the end of its line. -/
theorem leads_emptyFlowLine {s r : Scan} (hready : ready? s = some r)
    (hlength : r.cursor.rest.length ≤ s.cursor.rest.length) {n k : Nat} (hindent : r.indent = n)
    (hcolumn : n < r.cursor.column) {b e : Char} {t u : Token} (hflow : EmptyFlow b e t u)
    {tail : List Char} (htail : Fresh tail)
    (hrest : r.cursor.rest = b :: e :: ('\n' :: (spaces k ++ tail))) {o : Option KeySpot}
    (ho : r.spots = [o]) (hpending : Pending r.cursor o) : Leads s { r with
      cursor := r.cursor.pass ([b, e] ++ '\n' :: spaces k)
      tokens := (r.tokens.push t).push u
      spots := [none]
      keyAllowed := true } := by
  obtain ⟨o', hspots, hpending'⟩ := pending_withSpot ho hpending (by omega)
  obtain ⟨o'', hpending'', hexpire⟩ := expire_pending (hpending'.mono (Cursor.line_le_pass [b] _))
  have hafter : (r.cursor.pass [b, e]).rest = '\n' :: (spaces k ++ tail) :=
    @Cursor.rest_pass_of_eq [b, e] _ _ hrest
  have hend : Pending (r.cursor.pass [b, e]) o'' := hpending''.mono (Cursor.line_le_pass [e] _)
  rw [Cursor.pass_append]
  exact (leads_emptyFlow hready hlength hflow hrest ho (fun _ => hpending) (hspots ▸ hexpire)).trans
    (leads_line htail hafter rfl hend)

/-- A leaf after a blank, with the end of its line. -/
theorem leads_leaf {s : Scan} {n k : Nat} (hindent : s.indent = n) (hcolumn : n ≤ s.cursor.column)
    (hk : k ≤ n) {v : Value} (hv : v.isLeaf = true) {tail : List Char} (htail : Fresh tail)
    (hrest : s.cursor.rest = ' ' :: (v.leafText (n + 2) ++
      (Value.endLine (v.leafText (n + 2)) ++ (spaces k ++ tail))))
    {o : Option KeySpot} (ho : s.spots = [o]) (hpending : Pending s.cursor o) : Leads s { s with
      cursor := s.cursor.pass (' ' :: (v.leafText (n + 2) ++
        (Value.endLine (v.leafText (n + 2)) ++ spaces k)))
      tokens := s.tokens ++ v.leafTokens.toArray
      spots := [none]
      keyAllowed := true } := by
  have hpassLine : (s.cursor.pass (spaces 1)).column = s.cursor.column + 1 :=
    Cursor.column_pass_of_noBreak rfl _
  have hafter := @Cursor.rest_pass_of_eq (spaces 1) _ _ hrest
  have hlength : (s.cursor.pass (spaces 1)).rest.length ≤ s.cursor.rest.length :=
    Cursor.length_rest_pass_le _ _
  rcases Value.isLeaf_cases hv with hv | ⟨b, e, t, u, hflow, htokens, htext⟩
  · rw [Value.leafText_scalar hv] at hrest hafter ⊢
    have hsuits := Value.suits_style hv
    obtain ⟨o', hpending', hready⟩ := @ready?_pending s 1 _ (fresh_write hsuits (n + 2) _) hrest
      (by omega) o ho hpending
    have hleads := leads_write hready hlength hindent
      (by rw [hpassLine]; exact Nat.lt_succ_of_le hcolumn) hk hsuits htail hafter rfl hpending'
    rw [← Cursor.pass_append] at hleads
    simpa [Value.leafTokens_scalar hv, Value.scalarToken, spaces_succ] using hleads
  · rw [htext, Value.endLine_of_noBreak (by cases hflow <;> rfl)] at hrest hafter ⊢
    have hfresh : Fresh (b :: e :: ('\n' :: (spaces k ++ tail))) := by
      cases hflow <;> exact fresh_cons.mpr (by decide)
    obtain ⟨o', hpending', hready⟩ := @ready?_pending s 1 _ hfresh hrest (by omega) o ho hpending
    have hleads := leads_emptyFlowLine hready hlength hindent
      (by rw [hpassLine]; exact Nat.lt_succ_of_le hcolumn) hflow htail hafter rfl hpending'
    rw [← Cursor.pass_append] at hleads
    have htwo : s.tokens ++ [t, u].toArray = (s.tokens.push t).push u := Array.ext' (by simp)
    rw [htokens, htwo]
    simpa [spaces_succ] using hleads

end Scan

end RouteFleet.Yaml
