import RouteFleet.Proofs.Text.Bytes
import RouteFleet.Proofs.Text.Digits
import RouteFleet.Proofs.Yaml.Style
import RouteFleet.Yaml.Printer
import RouteFleet.Yaml.Token.Property

/-! # Tags

A tag that is written is read back with its mark (`Token.takeTag_writeTag`), unless a comma or a
bracket stands in it: these the writer leaves as they are, and the scanner breaks off there
(`Token.takeTag_eq_none`).
-/

namespace RouteFleet.Yaml

open Text Style Value

namespace Token

/-! ## Characters of tags -/

/-- A mark of a flow collection, which ends a tag for the scanner but not for the writer. -/
def isFlowMark (c : Char) : Bool := c == ',' || c == '[' || c == ']'

/-- How a character of a tag is written. -/
def writeTagChar (c : Char) : List Char :=
  if isTagChar c then [c] else (String.singleton c).toUTF8.toList.flatMap escapeByte

theorem writeTagName_eq (cs : List Char) : writeTagName cs = cs.flatMap writeTagChar := rfl

theorem isTagUriChar_of_isTagChar {c : Char} (h : isTagChar c = true)
    (hmark : isFlowMark c = false) (verbatim : Bool) : isTagUriChar verbatim c = true := by
  have hall : "-_;/?:@&=+$,.~*'()[]".toList.all (fun c =>
      isFlowMark c || (isTagUriChar false c && isTagUriChar true c)) = true := by decide
  simp only [isTagChar, Bool.or_eq_true, List.contains_iff_mem] at h
  rcases h with h | h
  · simp [isTagUriChar, isNameChar, h]
  · have hc := List.all_eq_true.mp hall c h
    rw [hmark, Bool.false_or, Bool.and_eq_true] at hc
    cases verbatim with
    | false => exact hc.1
    | true => exact hc.2

theorem isTagUriChar_percent (verbatim : Bool) : isTagUriChar verbatim '%' = true := by
  cases verbatim <;> decide

theorem isTagUriChar_of_isAlnum {c : Char} (h : isAlnum c = true) (verbatim : Bool) :
    isTagUriChar verbatim c = true := by
  simp [isTagUriChar, isNameChar, h]

/-- A character is written as itself, or as escapes of its bytes. -/
theorem writeTagChar_cases (c : Char) :
    (writeTagChar c = [c] ∧ isTagChar c = true) ∨
      writeTagChar c = (String.utf8EncodeChar c).flatMap escapeByte := by
  cases hc : isTagChar c with
  | true => exact .inl ⟨by rw [writeTagChar, if_pos hc], rfl⟩
  | false =>
    refine .inr ?_
    rw [writeTagChar, hc, toList_toUTF8_singleton]
    rfl

/-- What an escape consists of. -/
theorem mem_escapeByte {b : UInt8} {c : Char} (h : c ∈ escapeByte b) :
    c = '%' ∨ isAlnum c = true := by
  rcases List.mem_cons.mp h with h | h
  · exact .inl h
  · exact .inr (isAlnum_of_mem_escapeDigits h)

/-- What a tag without marks of flow collections consists of. -/
theorem isTagUriChar_of_mem_writeTagName {cs : List Char}
    (h : ∀ c ∈ cs, isFlowMark c = false) (verbatim : Bool) :
    (writeTagName cs).all (isTagUriChar verbatim) = true := by
  rw [List.all_eq_true]
  intro d hd
  obtain ⟨c, hc, hd⟩ := List.mem_flatMap.mp hd
  rcases writeTagChar_cases c with ⟨heq, htag⟩ | heq
  · obtain rfl : d = c := by simpa [heq] using (show d ∈ writeTagChar c from hd)
    exact isTagUriChar_of_isTagChar htag (h d hc) verbatim
  · obtain ⟨b, -, hd⟩ := List.mem_flatMap.mp (heq ▸ (show d ∈ writeTagChar c from hd))
    rcases mem_escapeByte hd with rfl | hd
    · exact isTagUriChar_percent verbatim
    · exact isTagUriChar_of_isAlnum hd verbatim

/-! ## Bytes of tags -/

theorem tagBytes_escapeByte (b : UInt8) (tail : List Char) :
    tagBytes (escapeByte b ++ tail) = (tagBytes tail).map (b :: ·) := by
  obtain ⟨x, y, hxy⟩ : ∃ x y, escapeDigits 2 b.toNat = [x, y] := by
    match escapeDigits 2 b.toNat, length_escapeDigits 2 b.toNat with
    | [x, y], _ => exact ⟨x, y, rfl⟩
  have hdigits : digits? 16 [x, y] = some b.toNat := by
    rw [← hxy]
    exact digits?_escapeDigits (by decide) b.toNat_lt
  rw [escapeByte, hxy]
  simp only [List.cons_append, List.nil_append, tagBytes, hdigits, Option.bind_eq_bind,
    Option.bind_some, UInt8.ofNat_toNat, Nat.toUInt8_eq]
  cases tagBytes tail <;> rfl

theorem tagBytes_escapeBytes (bs : List UInt8) (tail : List Char) :
    tagBytes (bs.flatMap escapeByte ++ tail) = (tagBytes tail).map (bs ++ ·) := by
  induction bs with
  | nil => simp
  | cons b bs ih =>
    rw [List.flatMap_cons, List.append_assoc, tagBytes_escapeByte, ih, Option.map_map]
    rfl

theorem tagBytes_of_ne {c : Char} (h : c ≠ '%') (tail : List Char) :
    tagBytes (c :: tail) = (tagBytes tail).map (String.utf8EncodeChar c ++ ·) := by
  rw [tagBytes.eq_def]
  split
  · rename_i heq
    exact nomatch heq
  · rename_i heq
    exact absurd (List.cons.inj heq).1 h
  · rename_i heq
    obtain ⟨rfl, rfl⟩ := List.cons.inj heq
    rw [toList_toUTF8_singleton, if_neg (by simpa using h)]
    cases tagBytes _ <;> rfl

theorem tagBytes_writeTagName (cs : List Char) :
    tagBytes (writeTagName cs) = some (cs.flatMap String.utf8EncodeChar) := by
  induction cs with
  | nil => rfl
  | cons c cs ih =>
    rw [writeTagName_eq] at ih ⊢
    rw [List.flatMap_cons, List.flatMap_cons]
    rcases writeTagChar_cases c with ⟨heq, htag⟩ | heq
    · have hne : c ≠ '%' := by
        rintro rfl
        exact absurd htag (by decide)
      rw [heq, List.singleton_append, tagBytes_of_ne hne, ih]
      rfl
    · rw [heq, tagBytes_escapeBytes, ih]
      rfl

theorem tagText?_writeTagName (cs : List Char) :
    tagText? (writeTagName cs) = some (String.ofList cs) := by
  rw [tagText?, tagBytes_writeTagName]
  exact fromUTF8?_flatMap cs

/-! ## The token of a tag -/

/-- The token that a tag is read as. -/
def ofTag (t : String) : Token :=
  if markedTag t = ['!'] then .tag "" "!" else .tag "!" (String.ofList ((markedTag t).drop 1))

theorem exists_markedTag (t : String) : ∃ name, markedTag t = '!' :: name := by
  rw [markedTag]
  cases hlead : stripLead? "!" t with
  | none => exact ⟨t.toList, rfl⟩
  | some rest =>
    obtain rfl := append_of_stripLead hlead
    exact ⟨rest.toList, by simp⟩

theorem not_isNameChar_of_gap {c : Char} (h : isBlank c = true ∨ isBreak c = true) :
    isTagUriChar false c = false ∧ isNameChar c = false ∧ c ≠ '!' ∧ c ≠ '<' := by
  have hall : gapChars.all (fun c => !isTagUriChar false c && !isNameChar c && c != '!' && c != '<') =
      true := by decide
  have hc := List.all_eq_true.mp hall c (mem_gapChars h)
  simpa [and_assoc] using hc

theorem isNameChar_of_not_isTagUriChar {c : Char} (h : isTagUriChar false c = false) :
    isNameChar c = false := by
  simp only [isTagUriChar, Bool.or_eq_false_iff] at h
  exact h.1.1

theorem writeTagChar_of_isNameChar {c : Char} (h : isNameChar c = true) : writeTagChar c = [c] := by
  have htag : isTagChar c = true := by
    simp only [isNameChar, Bool.or_eq_true, beq_iff_eq] at h
    rcases h with (h | rfl) | rfl
    · simp [isTagChar, h]
    · decide
    · decide
  rw [writeTagChar, if_pos htag]

theorem writeTagName_of_isNameChar {cs : List Char} (h : cs.all isNameChar = true) :
    writeTagName cs = cs := by
  induction cs with
  | nil => rfl
  | cons c cs ih =>
    rw [List.all_cons, Bool.and_eq_true] at h
    rw [writeTagName_eq, List.flatMap_cons, writeTagChar_of_isNameChar h.1, ← writeTagName_eq,
      ih h.2]
    rfl

/-- How what is written for a tag's name begins. -/
theorem head?_writeTagName {cs : List Char} {d : Char} (h : d ∈ (writeTagName cs).head?) :
    (d ∈ cs.head? ∧ isTagChar d = true) ∨ d = '%' := by
  cases cs with
  | nil => exact nomatch h
  | cons c cs =>
    rw [writeTagName_eq, List.flatMap_cons] at h
    rcases writeTagChar_cases c with ⟨heq, htag⟩ | heq
    · rw [heq] at h
      obtain rfl : c = d := by simpa using h
      exact .inl ⟨rfl, htag⟩
    · rw [heq] at h
      cases hbytes : String.utf8EncodeChar c with
      | nil => exact absurd hbytes String.utf8EncodeChar_ne_nil
      | cons b bs =>
        rw [hbytes, List.flatMap_cons, escapeByte] at h
        exact .inr (by simpa using h.symm)

theorem noBreak_of_isTagUriChar {cs : List Char} (h : cs.all (isTagUriChar false) = true) :
    cs.all (!isBreak ·) = true := by
  rw [List.all_eq_true] at h ⊢
  intro c hc
  rw [Bool.not_eq_true', Bool.eq_false_iff]
  intro hbreak
  have huri := h c hc
  rw [(not_isNameChar_of_gap (.inr hbreak)).1] at huri
  exact Bool.false_ne_true huri

/-- A handle with no mark at its end is not one that a directive gives a meaning. -/
theorem isFullHandle_eq_false {w : List Char} (h : w.all isNameChar = true) :
    isFullHandle (String.ofList ('!' :: w)) = false := by
  rcases List.eq_nil_or_concat w with rfl | ⟨v, c, rfl⟩
  · rfl
  · have hne : '!' ≠ c := by
      rintro rfl
      exact absurd (List.all_eq_true.mp h '!' (by simp)) (by decide)
    have hsuffix : endsWith "!" (String.ofList ('!' :: v.concat c)) = false := by
      rw [endsWith, String.toList_ofList, List.concat_eq_append, ← List.cons_append,
        Bool.eq_false_iff, ne_eq, List.isSuffixOf_iff_suffix]
      rintro ⟨pre, hpre⟩
      rw [String.toList_ofList] at hpre
      exact hne (List.singleton_inj.mp (List.append_inj' hpre rfl).2)
    rw [isFullHandle, hsuffix, Bool.and_false]

theorem takeHandle_eq {w tail : List Char} (hw : w.all isNameChar = true)
    (htail : ∀ c ∈ tail.head?, isNameChar c = false ∧ c ≠ '!') {cur : Cursor}
    (h : cur.rest = '!' :: (w ++ tail)) :
    takeHandle cur = some (String.ofList ('!' :: w), cur.pass ('!' :: w)) := by
  have hnext : (cur.pass ['!']).rest = w ++ tail := Cursor.rest_pass_of_eq h
  have hbreak : w.all (!isBreak ·) = true := by
    refine noBreak_of_isTagUriChar (List.all_eq_true.mpr fun c hc => ?_)
    simp [isTagUriChar, List.all_eq_true.mp hw c hc]
  have htake := Cursor.takeWhile_eq_pass hnext hw hbreak fun c hc => (htail c hc).1
  have hafter : ((cur.pass ['!']).pass w).rest = tail := Cursor.rest_pass_of_eq hnext
  have hat : ((cur.pass ['!']).pass w).at? (· == '!') = false :=
    Cursor.at?_eq_false hafter fun c hc => beq_eq_false_iff_ne.mpr (htail c hc).2
  rw [takeHandle, Cursor.at?_cons h, Cursor.skip_one_eq_pass h rfl, htake]
  simp only [hat, beq_self_eq_true, if_true, Bool.false_eq_true, if_false]
  rw [← Cursor.pass_append]
  rfl

theorem takeTagUri_eq {cs tail : List Char} (hcs : ∀ c ∈ cs, isFlowMark c = false)
    (htail : ∀ c ∈ tail.head?, isTagUriChar false c = false) {cur : Cursor}
    (h : cur.rest = writeTagName cs ++ tail) :
    takeTagUri false cur = some (String.ofList cs, cur.pass (writeTagName cs)) := by
  have hall := isTagUriChar_of_mem_writeTagName hcs false
  rw [takeTagUri, Cursor.takeWhile_eq_pass h hall (noBreak_of_isTagUriChar hall) htail]
  simp [tagText?_writeTagName]

/-- Where the characters of a name end, what is written for the rest of a tag goes on with neither of
the marks that mean something to the scanner. -/
theorem head?_writeTagName_append {ds tail : List Char} (hds : ∀ c ∈ ds.head?, isNameChar c = false)
    (htail : ∀ c ∈ tail.head?, isTagUriChar false c = false ∧ c ≠ '!' ∧ c ≠ '<') {c : Char}
    (hc : c ∈ (writeTagName ds ++ tail).head?) : isNameChar c = false ∧ c ≠ '!' ∧ c ≠ '<' := by
  rw [List.head?_append, Option.mem_def, Option.or_eq_some_iff] at hc
  rcases hc with hc | ⟨-, hc⟩
  · rcases head?_writeTagName hc with ⟨hc, htag⟩ | rfl
    · refine ⟨hds c hc, ?_, ?_⟩
      · rintro rfl
        exact absurd htag (by decide)
      · rintro rfl
        exact absurd htag (by decide)
    · decide
  · obtain ⟨huri, hne⟩ := htail c hc
    exact ⟨isNameChar_of_not_isTagUriChar huri, hne⟩

theorem looksAt_bracket_eq_false {w tail : List Char} (hw : w.all isNameChar = true)
    (htail : ∀ c ∈ tail.head?, c ≠ '<') {cur : Cursor} (h : cur.rest = '!' :: (w ++ tail)) :
    cur.looksAt 1 '<' = false := by
  have hhead : (w ++ tail).head? ≠ some '<' := by
    intro hhead
    rw [List.head?_append, Option.or_eq_some_iff] at hhead
    rcases hhead with hhead | ⟨-, hhead⟩
    · have hname := List.all_eq_true.mp hw '<' (List.mem_of_mem_head? hhead)
      exact absurd hname (by decide)
    · exact htail '<' hhead rfl
  rw [Cursor.looksAt, h]
  cases hrest : w ++ tail with
  | nil => rfl
  | cons c more =>
    have hc : c ≠ '<' := fun hc => hhead (by rw [hrest, hc]; rfl)
    simp [hc]

/-- A tag whose mark is not followed by an angle bracket is taken up to the first character that
does not belong to it. -/
theorem takeTag_shorthand {cs tail : List Char} (hcs : ∀ c ∈ cs, isFlowMark c = false)
    (htail : ∀ c ∈ tail.head?, isTagUriChar false c = false ∧ c ≠ '!' ∧ c ≠ '<') {cur : Cursor}
    (h : cur.rest = '!' :: (writeTagName cs ++ tail)) : takeTag false cur =
      if (cur.pass ('!' :: writeTagName cs)).gapAt 0 then
        some (if cs = [] then .tag "" "!" else .tag "!" (String.ofList cs),
          cur.pass ('!' :: writeTagName cs))
      else none := by
  -- The characters of a name after the mark are taken with it, and the rest after them.
  obtain ⟨w, r, rfl, hw, hr⟩ := exists_run_append isNameChar cs
  have hname : writeTagName (w ++ r) = w ++ writeTagName r := by
    rw [writeTagName_eq, List.flatMap_append, ← writeTagName_eq, ← writeTagName_eq,
      writeTagName_of_isNameChar hw]
  rw [hname, List.append_assoc] at h
  have hhead : ∀ c ∈ (writeTagName r ++ tail).head?, isNameChar c = false ∧ c ≠ '!' ∧ c ≠ '<' :=
    fun c hc => head?_writeTagName_append hr htail hc
  have hlooks := looksAt_bracket_eq_false hw (fun c hc => (hhead c hc).2.2) h
  have hhandle := takeHandle_eq hw (fun c hc => ⟨(hhead c hc).1, (hhead c hc).2.1⟩) h
  have hnext : (cur.pass ('!' :: w)).rest = writeTagName r ++ tail := Cursor.rest_pass_of_eq h
  have huri := takeTagUri_eq (fun c hc => hcs c (List.mem_append_right _ hc))
    (fun c hc => (htail c hc).1) hnext
  have hpass : (cur.pass ('!' :: w)).pass (writeTagName r) =
      cur.pass ('!' :: writeTagName (w ++ r)) := by
    rw [← Cursor.pass_append, hname]
    rfl
  have hsuffix : String.ofList ((String.ofList ('!' :: w)).toList.drop 1) ++ String.ofList r =
      String.ofList (w ++ r) := by
    simp
  have hempty : (String.ofList (w ++ r) == "") = decide (w ++ r = []) := by
    rw [Bool.eq_iff_iff, beq_iff_eq, decide_eq_true_iff]
    exact ⟨fun heq => by simpa using congrArg String.toList heq, fun heq => by rw [heq]⟩
  rw [takeTag, hlooks]
  simp only [Bool.false_eq_true, if_false, hhandle, Option.bind_eq_bind, Option.bind_some, huri,
    isFullHandle_eq_false hw, hpass, hsuffix, hempty, decide_eq_true_eq, Bool.false_and,
    Bool.or_false]

/-- The mark of a tag is written as an escape where it is the whole tag. -/
theorem writeTagName_mark : writeTagName ['!'] = ['%', '2', '1'] := by
  have hmark : isTagChar '!' = false := by decide
  rw [writeTagName_eq, List.flatMap_singleton, writeTagChar, hmark, toList_toUTF8_singleton]
  decide

/-- A tag that is nothing but its mark stands between angle brackets. -/
theorem takeTag_verbatim {tail : List Char} (htail : BeginsGap tail) {cur : Cursor}
    (h : cur.rest = ['!', '<', '%', '2', '1', '>'] ++ tail) :
    takeTag false cur = some (.tag "" "!", cur.pass ['!', '<', '%', '2', '1', '>']) := by
  have hskip : cur.skip 2 = cur.pass ['!', '<'] :=
    @Cursor.skip_two_eq_pass '!' '<' (['%', '2', '1', '>'] ++ tail) cur h rfl rfl
  have hnext : (cur.pass ['!', '<']).rest = ['%', '2', '1'] ++ '>' :: tail :=
    Cursor.rest_pass_of_eq h
  have htake := @Cursor.takeWhile_eq_pass (isTagUriChar true) ['%', '2', '1'] ('>' :: tail) _ hnext
    (by decide) rfl (by
      intro c hc
      obtain rfl : '>' = c := by simpa using hc
      decide)
  have htext : tagText? ['%', '2', '1'] = some "!" := writeTagName_mark ▸ tagText?_writeTagName ['!']
  have hafter : ((cur.pass ['!', '<']).pass ['%', '2', '1']).rest = '>' :: tail :=
    Cursor.rest_pass_of_eq hnext
  have hskipEnd := Cursor.skip_one_eq_pass hafter rfl
  have hend : (cur.pass ['!', '<', '%', '2', '1', '>']).gapAt 0 = true :=
    @gapAt_eq_true [] _ htail _ (Cursor.rest_pass_of_eq h)
  have hlooks : cur.looksAt 1 '<' = true := by simp [Cursor.looksAt, h]
  rw [takeTag, hlooks]
  have hcond : ("!" == "" || !('>' == '>')) = false := by decide
  simp only [if_true, hskip, takeTagUri, htake, htext, Option.bind_eq_bind, Option.bind_some,
    pure, Cursor.at?_cons hafter, hcond, hskipEnd, Bool.false_eq_true, if_false]
  rw [← Cursor.pass_append, ← Cursor.pass_append]
  simp only [List.cons_append, List.nil_append, hend, Bool.true_or, if_true]

/-- A tag that is written is read back. -/
theorem takeTag_writeTag {t : String} (ht : ∀ c ∈ markedTag t, isFlowMark c = false)
    {tail : List Char} (htail : BeginsGap tail) {cur : Cursor} (h : cur.rest = writeTag t ++ tail) :
    takeTag false cur = some (ofTag t, cur.pass (writeTag t)) := by
  obtain ⟨name, hname⟩ := exists_markedTag t
  cases name with
  | nil =>
    have hwrite : writeTag t = ['!', '<', '%', '2', '1', '>'] := by
      rw [writeTag, hname]
      simp only [writeTagName_mark]
      rfl
    rw [hwrite] at h ⊢
    rw [takeTag_verbatim htail h, ofTag, if_pos hname]
  | cons c name =>
    have hwrite : writeTag t = '!' :: writeTagName (c :: name) := by
      rw [writeTag, hname]
    rw [hwrite] at h ⊢
    rw [takeTag_shorthand (fun d hd => ht d (by rw [hname]; exact List.mem_cons_of_mem _ hd)) ?_ h,
      if_pos, if_neg (List.cons_ne_nil _ _)]
    · simp [ofTag, hname]
    · exact @gapAt_eq_true [] _ htail _ (Cursor.rest_pass_of_eq h)
    · intro d hd
      obtain ⟨huri, -, hne⟩ := not_isNameChar_of_gap (htail d hd)
      exact ⟨huri, hne⟩

/-- The scanner breaks off at a mark of a flow collection in a tag, which the writer does not
escape. -/
theorem takeTag_eq_none {t : String} (ht : ∃ c ∈ markedTag t, isFlowMark c = true)
    {tail : List Char} {cur : Cursor} (h : cur.rest = writeTag t ++ tail) :
    takeTag false cur = none := by
  obtain ⟨name, hname⟩ := exists_markedTag t
  obtain ⟨w, r, rfl, hw, hr⟩ := exists_run_append (!isFlowMark ·) name
  have hwMark : ∀ c ∈ w, isFlowMark c = false := fun c hc => by
    simpa using List.all_eq_true.mp hw c hc
  cases r with
  | nil =>
    obtain ⟨c, hc, hmark⟩ := ht
    rw [hname, List.append_nil] at hc
    rcases List.mem_cons.mp hc with rfl | hc
    · exact absurd hmark (by decide)
    · rw [hwMark c hc] at hmark
      exact absurd hmark Bool.false_ne_true
  | cons m r =>
    have hmark : isFlowMark m = true := by simpa using hr m rfl
    have hm : isTagChar m = true ∧ isTagUriChar false m = false ∧ m ≠ '!' ∧ m ≠ '<' ∧
        isBlank m = false ∧ isBreak m = false := by
      simp only [isFlowMark, Bool.or_eq_true, beq_iff_eq] at hmark
      rcases hmark with (rfl | rfl) | rfl <;> decide
    have hwrite : writeTag t = '!' :: (writeTagName w ++ m :: writeTagName r) := by
      have hsplit : writeTagName (w ++ m :: r) = writeTagName w ++ m :: writeTagName r := by
        rw [writeTagName_eq, List.flatMap_append, List.flatMap_cons, writeTagChar, if_pos hm.1]
        rfl
      obtain ⟨d, ds, hd⟩ : ∃ d ds, w ++ m :: r = d :: ds := List.exists_cons_of_ne_nil (by simp)
      rw [writeTag, hname, ← hsplit, hd]
    rw [hwrite] at h
    have hrest : cur.rest = '!' :: (writeTagName w ++ (m :: (writeTagName r ++ tail))) := by
      simpa using h
    have hgap : (cur.pass ('!' :: writeTagName w)).gapAt 0 = false := by
      rw [Cursor.gapAt, Cursor.rest_pass_of_eq (by simpa using hrest)]
      simp [hm.2.2.2.2]
    rw [takeTag_shorthand hwMark ?_ hrest, hgap, if_neg Bool.false_ne_true]
    intro c hc
    obtain rfl : m = c := by simpa using hc
    exact ⟨hm.2.1, hm.2.2.1, hm.2.2.2.1⟩

end Token

end RouteFleet.Yaml
