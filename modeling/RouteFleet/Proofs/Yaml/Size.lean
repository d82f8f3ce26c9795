import RouteFleet.Proofs.Yaml.Tokens

/-! # Sizes of keys

A key that is written before its colon ends early enough for the scanner to still remember where it
began (`Value.byteCount_keyText_le`): what is written for it is at most seven times as long as what
counts for its length, and quotes.
-/

namespace RouteFleet.Yaml

open Text Style

/-! ## Bytes -/

namespace Cursor

theorem byteCount_eq_length {cs : List Char} (h : ∀ c ∈ cs, c.toNat < 128) :
    byteCount cs = cs.length := by
  induction cs with
  | nil => rfl
  | cons c cs ih =>
    have hc : c.utf8Size = 1 := by
      rw [Char.utf8Size_eq_one_iff]
      have := h c List.mem_cons_self
      exact UInt32.le_iff_toNat_le.mpr (Nat.le_of_lt_succ this)
    rw [byteCount_cons, hc, ih fun d hd => h d (List.mem_cons_of_mem _ hd), List.length_cons,
      Nat.add_comm]

theorem byteCount_flatMap_le {f : Char → List Char} {k : Nat} {cs : List Char}
    (h : ∀ c ∈ cs, byteCount (f c) ≤ k * c.utf8Size) :
    byteCount (cs.flatMap f) ≤ k * byteCount cs := by
  induction cs with
  | nil => exact Nat.zero_le _
  | cons c cs ih =>
    have hc := h c List.mem_cons_self
    have hcs := ih fun d hd => h d (List.mem_cons_of_mem _ hd)
    rw [List.flatMap_cons, byteCount_append, byteCount_cons, Nat.mul_add]
    omega

theorem byteCount_toList (s : String) : byteCount s.toList = s.utf8ByteSize := by
  have hlist : ∀ cs : List Char, byteCount cs = cs.utf8Encode.size := by
    intro cs
    rw [List.utf8Encode, List.size_toByteArray]
    induction cs with
    | nil => rfl
    | cons c cs ih =>
      rw [byteCount_cons, ih, List.flatMap_cons, List.length_append, String.length_utf8EncodeChar]
  rw [hlist, ← String.toByteArray_ofList, String.ofList_toList]
  rfl

end Cursor

open Cursor

theorem toNat_lt_of_isAlnum {c : Char} (h : isAlnum c = true) : c.toNat < 128 := by
  simp only [isAlnum, isLetter, isDigit, Bool.or_eq_true, Bool.and_eq_true, decide_eq_true_eq,
    Char.le_def, UInt32.le_iff_toNat_le] at h
  have htoNat : c.toNat = c.val.toNat := rfl
  simp only [show 'a'.val.toNat = 97 from rfl, show 'z'.val.toNat = 122 from rfl,
    show 'A'.val.toNat = 65 from rfl, show 'Z'.val.toNat = 90 from rfl,
    show '0'.val.toNat = 48 from rfl, show '9'.val.toNat = 57 from rfl] at h
  omega

/-! ## Tags -/

namespace Value

theorem byteCount_escapeByte (b : UInt8) : byteCount (escapeByte b) = 3 := by
  rw [byteCount_eq_length]
  · simp [escapeByte]
  · intro c hc
    rcases Token.mem_escapeByte hc with rfl | hc
    · decide
    · exact toNat_lt_of_isAlnum hc

theorem byteCount_writeTagName_le (cs : List Char) :
    byteCount (writeTagName cs) ≤ 3 * byteCount cs := by
  rw [Token.writeTagName_eq]
  refine byteCount_flatMap_le fun c _ => ?_
  rcases Token.writeTagChar_cases c with ⟨heq, -⟩ | heq
  · rw [heq, byteCount_cons, byteCount_nil]
    omega
  · have hbytes : ∀ bs : List UInt8, byteCount (bs.flatMap escapeByte) = 3 * bs.length := by
      intro bs
      induction bs with
      | nil => rfl
      | cons b bs ih =>
        rw [List.flatMap_cons, byteCount_append, byteCount_escapeByte, ih, List.length_cons]
        omega
    exact Nat.le_of_eq (by rw [heq, hbytes, String.length_utf8EncodeChar])

theorem byteCount_writeTag_le (t : String) :
    byteCount (writeTag t) ≤ 6 * byteCount (markedTag t) := by
  obtain ⟨name, hname⟩ := Token.exists_markedTag t
  have hmark : '!'.utf8Size = 1 := by decide
  cases name with
  | nil =>
    rw [writeTag, hname]
    simp only [Token.writeTagName_mark]
    decide
  | cons c name =>
    have hle := byteCount_writeTagName_le (c :: name)
    rw [writeTag, hname]
    simp only [byteCount_cons '!', hmark]
    omega

end Value

/-! ## Scalars -/

namespace Style

theorem byteCount_escapeChar_le (c : Char) : byteCount (escapeChar c) ≤ 6 * c.utf8Size := by
  have hpos := c.utf8Size_pos
  rw [escapeChar]
  split
  · rw [byteCount_cons, byteCount_nil]
    omega
  · have hslash : '\\'.utf8Size = 1 := by decide
    have hdigits : ∀ (l : Char) (w n : Nat), l.toNat < 128 →
        byteCount (l :: escapeDigits w n) = w + 1 := by
      intro l w n hl
      rw [byteCount_eq_length]
      · simp
      · intro d hd
        rcases List.mem_cons.mp hd with rfl | hd
        · exact hl
        · exact toNat_lt_of_isAlnum (isAlnum_of_mem_escapeDigits hd)
    rw [byteCount_cons, hslash]
    split
    case h_15 n _ _ _ _ _ _ _ _ _ _ _ _ _ _ =>
      split
      · rw [hdigits _ _ _ (by decide)]
        omega
      · split
        · rw [hdigits _ _ _ (by decide)]
          omega
        · -- A character with so large a number takes more than one byte itself.
          have htwo : c.utf8Size ≠ 1 := by
            rw [ne_eq, Char.utf8Size_eq_one_iff, UInt32.le_iff_toNat_le]
            have hval : c.val.toNat = c.toNat := rfl
            have hbound : (127 : UInt32).toNat = 127 := rfl
            omega
          rw [hdigits _ _ _ (by decide)]
          omega
    all_goals
      refine Nat.le_trans (m := 2) ?_ (by omega)
      decide

/-- The inside of quotes is at most six times as long as the text. -/
theorem byteCount_singleQuotedBody_le {cs : List Char} (h : cs.all (!isBreak ·) = true)
    (indent : Nat) : byteCount (singleQuotedBody indent false cs) ≤ 6 * byteCount cs := by
  induction cs with
  | nil => exact Nat.zero_le _
  | cons c cs ih =>
    rw [List.all_cons, Bool.and_eq_true, Bool.not_eq_true'] at h
    have hih := ih h.2
    rw [singleQuotedBody, h.1, byteCount_cons]
    by_cases hquote : c = '\x27' <;> simp [hquote, byteCount_cons] <;> omega

theorem byteCount_write_le {s : String} {st : Style} (hst : st ≠ .literal)
    (h : s.toList.all (!isBreak ·) = true) (indent : Nat) :
    byteCount (write indent s st) ≤ 6 * byteCount s.toList + 2 := by
  have hsingle : '\x27'.utf8Size = 1 := by decide
  have hdouble : '"'.utf8Size = 1 := by decide
  cases st with
  | plain =>
    rw [write]
    omega
  | singleQuoted =>
    have hle := byteCount_singleQuotedBody_le h indent
    simp only [write, byteCount_append, byteCount_cons, byteCount_nil, hsingle]
    omega
  | doubleQuoted =>
    have hle := @byteCount_flatMap_le escapeChar 6 s.toList fun c _ => byteCount_escapeChar_le c
    simp only [write, byteCount_append, byteCount_cons, byteCount_nil, hdouble]
    omega
  | literal => exact absurd rfl hst

end Style

/-! ## Keys -/

namespace Value

/-- What is written for a value that may stand before a colon: a leaf, after its tags. -/
def keyText (indent : Nat) : Value → List Char
  | .tagged t content => writeTag t ++ ' ' :: content.keyText indent
  | v => v.leafText indent

theorem style_ne_literal {v : Value} (h : v.scalarText.toList.any isBreak = false) :
    v.style ≠ .literal := by
  cases v with
  | string s =>
    have hfeed : s.toList.contains '\n' = false := by
      rw [Bool.eq_false_iff, ne_eq, List.contains_iff_mem]
      intro hmem
      exact Bool.false_ne_true (h ▸ List.any_eq_true.mpr ⟨'\n', hmem, rfl⟩)
    show Style.ofText s ≠ .literal
    rw [Style.ofText, hfeed, if_neg Bool.false_ne_true]
    intro hliteral
    split at hliteral
    · cases hliteral
    split at hliteral
    · cases hliteral
    · cases hliteral
  | _ =>
    intro hliteral
    cases hliteral

/-- A leaf that may stand before a colon: on one line and short enough. -/
theorem isSimpleKey_scalar {n : Nat} {v : Value} (hv : v.isScalar = true)
    (h : isSimpleKey n v = true) : v.scalarText.toList.any isBreak = false ∧
      n + v.scalarText.utf8ByteSize ≤ 128 := by
  cases v with
  | null => simpa [isSimpleKey] using h
  | bool b => simpa [isSimpleKey] using h
  | number x => simpa [isSimpleKey] using h
  | string s => simpa [isSimpleKey] using h
  | _ => exact nomatch hv

theorem isLeaf_of_isSimpleKey {n : Nat} {v : Value} (h : isSimpleKey n v = true)
    (htag : ∀ t content, v ≠ .tagged t content) : v.isLeaf = true := by
  cases v with
  | sequence items =>
    rw [isSimpleKey, Bool.and_eq_true] at h
    exact h.1
  | mapping entries =>
    rw [isSimpleKey, Bool.and_eq_true] at h
    exact h.1
  | tagged t content => exact absurd rfl (htag t content)
  | _ => rfl

theorem isSimpleKey_tagged {n : Nat} {t : String} {content : Value}
    (h : isSimpleKey n (.tagged t content) = true) :
    isSimpleKey (n + byteCount (markedTag t)) content = true := by
  rw [← String.toList_ofList (l := markedTag t), byteCount_toList]
  exact h

/-- A key that is written before its colon is a leaf after its tags. -/
@[elab_as_elim]
theorem simpleKey_induction {motive : (n : Nat) → (v : Value) → isSimpleKey n v = true → Prop}
    (tagged : ∀ n t content h, motive (n + byteCount (markedTag t)) content (isSimpleKey_tagged h) →
      motive n (.tagged t content) h)
    (leaf : ∀ n v h, v.isLeaf = true → motive n v h) : ∀ n k h, motive n k h
  | n, .tagged t content, h => tagged n t content h (simpleKey_induction tagged leaf _ content _)
  | n, .null, h => leaf n _ h rfl
  | n, .bool _, h => leaf n _ h rfl
  | n, .number _, h => leaf n _ h rfl
  | n, .string _, h => leaf n _ h rfl
  | n, .sequence _, h => leaf n _ h (isLeaf_of_isSimpleKey h (by simp))
  | n, .mapping _, h => leaf n _ h (isLeaf_of_isSimpleKey h (by simp))

theorem keyText_leaf {v : Value} (h : v.isLeaf = true) (indent : Nat) :
    v.keyText indent = v.leafText indent := by
  cases v <;> first | rfl | exact absurd h (by simp [isLeaf])

theorem byteCount_leafText_le {n : Nat} {v : Value} (hv : v.isLeaf = true)
    (h : isSimpleKey n v = true) (indent : Nat) :
    byteCount (v.leafText indent) ≤ 7 * (128 - n) + 2 ∧ n ≤ 128 := by
  have hscalar : v.isScalar = true →
      byteCount (v.leafText indent) ≤ 7 * (128 - n) + 2 ∧ n ≤ 128 := by
    intro hv
    obtain ⟨hbreak, hsize⟩ := isSimpleKey_scalar hv h
    have hall : v.scalarText.toList.all (!isBreak ·) = true := by
      rw [List.all_eq_true]
      intro c hc
      rw [noBreak_of_any hbreak c hc]
      rfl
    have hle := byteCount_write_le (style_ne_literal hbreak) hall indent
    rw [leafText_scalar hv]
    rw [byteCount_toList] at hle
    omega
  have hflow : ∀ cs : List Char, byteCount cs = 2 → n ≤ 128 →
      byteCount cs ≤ 7 * (128 - n) + 2 ∧ n ≤ 128 := by
    omega
  cases v with
  | sequence items =>
    rw [isSimpleKey, Bool.and_eq_true, decide_eq_true_eq] at h
    exact hflow ['[', ']'] (by decide) h.2
  | mapping entries =>
    rw [isSimpleKey, Bool.and_eq_true, decide_eq_true_eq] at h
    exact hflow ['\x7b', '\x7d'] (by decide) h.2
  | tagged t content => exact absurd hv (by simp [isLeaf])
  | _ => exact hscalar rfl

theorem byteCount_keyText_le (indent : Nat) {n : Nat} {k : Value} (h : isSimpleKey n k = true) :
    byteCount (k.keyText indent) ≤ 7 * (128 - n) + 2 ∧ n ≤ 128 := by
  induction n, k, h using simpleKey_induction with
  | tagged n t content h ih =>
    have hblank : ' '.utf8Size = 1 := by decide
    obtain ⟨hle, hn⟩ := ih
    have htag := byteCount_writeTag_le t
    have hpos : 1 ≤ byteCount (markedTag t) := by
      obtain ⟨name, hname⟩ := Token.exists_markedTag t
      rw [hname, byteCount_cons, show '!'.utf8Size = 1 by decide]
      omega
    rw [keyText, byteCount_append, byteCount_cons, hblank]
    omega
  | leaf n v h hv =>
    rw [keyText_leaf hv]
    exact byteCount_leafText_le hv h indent

theorem writeAt_key (inMapping : Bool) (indent : Nat) {n : Nat} {k : Value}
    (h : isSimpleKey n k = true) :
    writeAt .afterKey inMapping indent k = ' ' :: k.keyText (indent + 2) := by
  induction n, k, h using simpleKey_induction with
  | tagged n t content h ih =>
    rw [writeAt, ih, keyText]
    rfl
  | leaf n v h hv =>
    rw [keyText_leaf hv]
    exact writeAt_leaf hv _ _ _

end Value

end RouteFleet.Yaml
