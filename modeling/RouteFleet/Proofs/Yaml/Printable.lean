import RouteFleet.Proofs.Yaml.Tokens

/-! # Characters of written documents

Whatever is written consists of printable characters (`Value.all_isPrintable_write`), none of which
the scanner refuses.
-/

namespace RouteFleet.Yaml

open Text Style Value

theorem isTextChar_of_isPrintable {c : Char} (h : isPrintable c = true) : isTextChar c = true := by
  rw [isTextChar, h]
  rfl

theorem isPrintable_of_isAlnum {c : Char} (h : isAlnum c = true) : isPrintable c = true := by
  have hval : c.toNat = c.val.toNat := rfl
  simp only [isAlnum, isLetter, isDigit, Bool.or_eq_true, Bool.and_eq_true, decide_eq_true_eq,
    Char.le_def, UInt32.le_iff_toNat_le] at h
  simp only [show 'a'.val.toNat = 97 from rfl, show 'z'.val.toNat = 122 from rfl,
    show 'A'.val.toNat = 65 from rfl, show 'Z'.val.toNat = 90 from rfl,
    show '0'.val.toNat = 48 from rfl, show '9'.val.toNat = 57 from rfl] at h
  simp only [isPrintable, Bool.or_eq_true, Bool.and_eq_true, beq_iff_eq, decide_eq_true_eq]
  omega

theorem isPrintable_of_isTagChar {c : Char} (h : isTagChar c = true) : isPrintable c = true := by
  have hall : "-_;/?:@&=+$,.~*'()[]".toList.all isPrintable = true := by decide
  rw [isTagChar, Bool.or_eq_true, List.contains_iff_mem] at h
  rcases h with h | h
  · exact isPrintable_of_isAlnum h
  · exact List.all_eq_true.mp hall c h

theorem all_isPrintable_escapeDigits (width n : Nat) :
    (escapeDigits width n).all isPrintable = true := by
  rw [List.all_eq_true]
  intro c hc
  exact isPrintable_of_isAlnum (isAlnum_of_mem_escapeDigits hc)

theorem all_isPrintable_spaces (n : Nat) : (spaces n).all isPrintable = true := all_spaces rfl n

/-! ## Scalars -/

namespace Style

theorem all_isPrintable_escapeChar (c : Char) : (escapeChar c).all isPrintable = true := by
  rw [escapeChar]
  split
  · rename_i h
    simp only [Bool.and_eq_true] at h
    simp [h.1.1.1]
  · rw [List.all_cons]
    split
    case h_15 =>
      split
      · rw [List.all_cons, all_isPrintable_escapeDigits]
        rfl
      split
      · rw [List.all_cons, all_isPrintable_escapeDigits]
        rfl
      · rw [List.all_cons, all_isPrintable_escapeDigits]
        rfl
    all_goals rfl

theorem all_isPrintable_singleQuotedBody (indent : Nat) {cs : List Char}
    (h : cs.all isPrintable = true) (fresh : Bool) :
    (singleQuotedBody indent fresh cs).all isPrintable = true := by
  induction cs generalizing fresh with
  | nil =>
    rw [singleQuotedBody]
    split
    · exact all_isPrintable_spaces indent
    · rfl
  | cons c cs ih =>
    rw [List.all_cons, Bool.and_eq_true] at h
    rw [singleQuotedBody]
    split
    · rw [List.all_cons, h.1, ih h.2]
      rfl
    · have hlead : (if fresh = true then spaces indent else []).all isPrintable = true := by
        split
        · exact all_isPrintable_spaces indent
        · rfl
      have hquote : (if c = '\x27' then [c, c] else [c]).all isPrintable = true := by
        split <;> simp [h.1]
      rw [List.all_append, List.all_append, ih h.2, hlead, hquote]
      rfl

theorem all_isPrintable_literalBody (indent : Nat) {cs : List Char}
    (h : cs.all isPrintable = true) (fresh : Bool) :
    (literalBody indent fresh cs).all isPrintable = true := by
  induction cs generalizing fresh with
  | nil => rfl
  | cons c cs ih =>
    rw [List.all_cons, Bool.and_eq_true] at h
    rw [literalBody]
    split
    · rw [List.all_cons, h.1, ih h.2]
      rfl
    · rw [List.all_append, List.all_cons, h.1, ih h.2]
      cases fresh <;> simp [all_isPrintable_spaces]

theorem all_isPrintable_literalHints (cs : List Char) :
    (literalHints cs).all isPrintable = true := by
  have hsign : ∀ chomp : Scalar.Chomp, chomp.sign.all isPrintable = true := by
    intro chomp
    cases chomp <;> rfl
  rw [Scalar.literalHints_eq, List.all_append, hsign]
  split <;> rfl

theorem all_isPrintable_write {s : String} {st : Style} (h : Suits s st) (indent : Nat) :
    (write indent s st).all isPrintable = true := by
  cases h with
  | plain hsafe =>
    rw [write, List.all_eq_true]
    exact hsafe.printable
  | singleQuoted hsafe =>
    have hbody := all_isPrintable_singleQuotedBody indent
      (List.all_eq_true.mpr hsafe.printable) false
    rw [write, List.cons_append, List.all_cons, List.all_append, hbody]
    rfl
  | doubleQuoted =>
    have hbody : (s.toList.flatMap escapeChar).all isPrintable = true := by
      rw [List.all_flatMap, List.all_eq_true]
      intro c _
      exact all_isPrintable_escapeChar c
    rw [write, List.cons_append, List.all_cons, List.all_append, hbody]
    rfl
  | literal _ hprintable =>
    have hbody := all_isPrintable_literalBody indent (List.all_eq_true.mpr hprintable) true
    rw [write, List.cons_append, List.all_cons, List.all_append, List.all_cons, hbody,
      all_isPrintable_literalHints]
    rfl

end Style

/-! ## Values -/

namespace Value

theorem all_isPrintable_writeTagName (cs : List Char) :
    (writeTagName cs).all isPrintable = true := by
  rw [Token.writeTagName_eq, List.all_flatMap, List.all_eq_true]
  intro c _
  rcases Token.writeTagChar_cases c with ⟨heq, htag⟩ | heq
  · rw [heq, List.all_cons, isPrintable_of_isTagChar htag]
    rfl
  · rw [heq, List.all_flatMap, List.all_eq_true]
    intro b _
    rw [escapeByte, List.all_cons, all_isPrintable_escapeDigits]
    rfl

theorem all_isPrintable_writeTag (t : String) : (writeTag t).all isPrintable = true := by
  obtain ⟨name, hname⟩ := Token.exists_markedTag t
  cases name with
  | nil =>
    rw [writeTag, hname]
    simp only [Token.writeTagName_mark]
    decide
  | cons c name =>
    rw [writeTag, hname]
    simp only [List.all_cons, all_isPrintable_writeTagName]
    rfl

theorem all_isPrintable_leafText {v : Value} (h : v.isLeaf = true) (indent : Nat) :
    (v.leafText indent).all isPrintable = true := by
  rcases isLeaf_cases h with hv | ⟨b, e, t, u, hflow, -, htext⟩
  · rw [leafText_scalar hv]
    exact all_isPrintable_write (suits_style hv) indent
  · rw [htext]
    cases hflow <;> rfl

theorem all_isPrintable_endLine (cs : List Char) : (endLine cs).all isPrintable = true := by
  rw [endLine]
  split
  · split <;> rfl
  · rfl

theorem all_isPrintable_joinLines (indent : Nat) {lines : List (List Char)}
    (h : ∀ cs ∈ lines, cs.all isPrintable = true) :
    (joinLines indent lines).all isPrintable = true := by
  induction lines with
  | nil => rfl
  | cons cs rest ih =>
    have hcs := h cs List.mem_cons_self
    have hrest := ih fun ds hds => h ds (List.mem_cons_of_mem _ hds)
    cases rest with
    | nil => exact hcs
    | cons ds rest =>
      rw [joinLines, List.all_append, List.all_append, List.all_append, hcs, hrest,
        all_isPrintable_endLine, all_isPrintable_spaces]
      · rfl
      · exact List.cons_ne_nil _ _

theorem all_isPrintable_beginBlock (place : Value.Place) (indent : Nat) {lines : List (List Char)}
    (h : ∀ cs ∈ lines, cs.all isPrintable = true) :
    (beginBlock place indent lines).all isPrintable = true := by
  have hlines := all_isPrintable_joinLines indent h
  cases place with
  | afterKey =>
    rw [beginBlock, List.all_append, List.all_cons, all_isPrintable_spaces, hlines]
    rfl
  | afterMark =>
    rw [beginBlock, List.all_cons, hlines]
    rfl

theorem all_isPrintable_writeEntry (indent : Nat) (place : Value.Place) {key value : List Char}
    (hkey : key.all isPrintable = true) (hvalue : value.all isPrintable = true) :
    (writeEntry indent place key value).all isPrintable = true := by
  cases place with
  | afterKey =>
    have hdrop : (key.drop 1).all isPrintable = true :=
      List.all_eq_true.mpr fun c hc => List.all_eq_true.mp hkey c (List.mem_of_mem_drop hc)
    rw [writeEntry, List.all_append, List.all_cons, hdrop, hvalue]
    rfl
  | afterMark =>
    refine all_isPrintable_joinLines indent fun cs hcs => ?_
    simp only [List.mem_cons, List.not_mem_nil, or_false] at hcs
    rcases hcs with rfl | rfl
    · rw [List.all_cons, hkey]
      rfl
    · rw [List.all_cons, hvalue]
      rfl

mutual

theorem all_isPrintable_writeAt (place : Value.Place) (inMapping : Bool) (indent : Nat) :
    ∀ v : Value, (writeAt place inMapping indent v).all isPrintable = true
  | .tagged t content => by
    rw [writeAt, List.all_append, List.all_cons, all_isPrintable_writeTag,
      all_isPrintable_writeAt .afterKey inMapping indent content]
    rfl
  | .sequence items => by
    rw [writeAt]
    split
    · rfl
    · exact all_isPrintable_beginBlock _ _ (all_isPrintable_itemLines _ items)
  | .mapping entries => by
    rw [writeAt]
    split
    · rfl
    · exact all_isPrintable_beginBlock _ _ (all_isPrintable_entryLines _ entries)
  | .null => by
    rw [writeAt_leaf rfl, List.all_cons, all_isPrintable_leafText rfl]
    rfl
  | .bool _ => by
    rw [writeAt_leaf rfl, List.all_cons, all_isPrintable_leafText rfl]
    rfl
  | .number _ => by
    rw [writeAt_leaf rfl, List.all_cons, all_isPrintable_leafText rfl]
    rfl
  | .string _ => by
    rw [writeAt_leaf rfl, List.all_cons, all_isPrintable_leafText rfl]
    rfl

theorem all_isPrintable_itemLines (indent : Nat) :
    ∀ items : List Value, ∀ cs ∈ itemLines indent items, cs.all isPrintable = true
  | [], _, h => nomatch h
  | v :: rest, cs, h => by
    rw [itemLines] at h
    rcases List.mem_cons.mp h with rfl | h
    · rw [List.all_cons, all_isPrintable_writeAt]
      rfl
    · exact all_isPrintable_itemLines indent rest cs h

theorem all_isPrintable_entryLines (indent : Nat) :
    ∀ entries : List (Value × Value), ∀ cs ∈ entryLines indent entries, cs.all isPrintable = true
  | [], _, h => nomatch h
  | (k, v) :: rest, cs, h => by
    rw [entryLines] at h
    rcases List.mem_cons.mp h with rfl | h
    · exact all_isPrintable_writeEntry indent _ (all_isPrintable_writeAt _ true indent k)
        (all_isPrintable_writeAt _ true indent v)
    · exact all_isPrintable_entryLines indent rest cs h

end

end Value

end RouteFleet.Yaml
