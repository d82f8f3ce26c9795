import RouteFleet.Proofs.Yaml.Style

/-! # Unquoted scalars

A text that may stand without quotes is read back as it was written, from its first word to its last
(`Scalar.plain_text`): whatever ends a word stands in the text as spaces only, and what comes after
the text, a colon or the end of the line, ends it.
-/

namespace RouteFleet.Yaml

open Text Style

/-! ## Texts that may stand without quotes -/

namespace Style

/-- Whether the scanner takes a text as a whole when it has begun to take it as an unquoted scalar:
nothing in it ends a line, and nothing between its words ends the scalar. -/
structure PlainSafe (cs : List Char) : Prop where
  printable : ∀ c ∈ cs, isPrintable c = true
  noBreak : ∀ c ∈ cs, isBreak c = false
  colon : adjacent (· == ':') isGap cs = false
  hash : adjacent isGap (· == '#') cs = false
  endsWord : ∀ c ∈ cs.getLast?, c ≠ ':' ∧ c ≠ ' '

theorem PlainSafe.of_append {cs ds : List Char} (h : PlainSafe (cs ++ ds)) : PlainSafe ds where
  printable := fun c hc => h.printable c (List.mem_append_right _ hc)
  noBreak := fun c hc => h.noBreak c (List.mem_append_right _ hc)
  colon := adjacent_of_append h.colon
  hash := adjacent_of_append h.hash
  endsWord := by
    intro c hc
    refine h.endsWord c ?_
    rw [List.getLast?_append, Option.mem_def.mp hc]
    rfl

theorem PlainSafe.all_noBreak {cs : List Char} (h : PlainSafe cs) :
    cs.all (!isBreak ·) = true := by
  rw [List.all_eq_true]
  intro c hc
  rw [h.noBreak c hc]
  rfl

/-- After spaces inside a text another word follows, since the text does not end with a space. -/
theorem PlainSafe.after_spaces {w es : List Char} {k : Nat}
    (h : PlainSafe (w ++ (spaces (k + 1) ++ es))) :
    PlainSafe es ∧ es ≠ [] ∧ es.head? ≠ some '#' := by
  have hlast : w ++ (spaces (k + 1) ++ es) = (w ++ spaces k) ++ ' ' :: es := by
    rw [spaces_add, List.append_assoc, List.append_assoc]
    rfl
  rw [hlast] at h
  refine ⟨?_, ?_, fun hhead => ?_⟩
  · rw [List.append_cons] at h
    exact h.of_append
  · rintro rfl
    exact (h.endsWord ' ' (by simp)).2 rfl
  · exact absurd (head_of_not_adjacent h.hash rfl '#' hhead) (by decide)

theorem PlainSafe.endsGap {es : List Char} (h : PlainSafe es) (hne : es ≠ [])
    (hspace : ∀ c ∈ es.head?, c ≠ ' ') (tail : List Char) : EndsGap (es ++ tail) := by
  intro c hc
  rw [List.head?_append_of_ne_nil _ hne] at hc
  have hmem := List.mem_of_mem_head? hc
  refine ⟨Bool.eq_false_iff.mpr fun hb => hspace c hc ?_, h.noBreak c hmem⟩
  exact eq_space_of_isBlank (h.printable c hmem) hb

/-- A word before spaces does not end with a colon. -/
theorem PlainSafe.ne_colon {w es : List Char} {k : Nat} (h : PlainSafe (w ++ (spaces (k + 1) ++ es))) :
    ∀ c ∈ w.getLast?, c ≠ ':' := by
  rintro c hc rfl
  obtain ⟨v, rfl⟩ := List.getLast?_eq_some_iff.mp hc
  exact absurd (not_adjacent_at h.colon (by rw [List.append_assoc]; rfl) rfl) (by decide)

/-- The first character of an unquoted scalar. -/
structure BeginsPlain (cs : List Char) : Prop where
  ne_space : ∀ c ∈ cs.head?, c ≠ ' '
  indicator : ∀ c ∈ cs.head?, isIndicator c = false
  /-- A dash, a question mark or a colon is part of the word that it begins. -/
  mark : ∀ c rest, cs = c :: rest → c = '-' ∨ c = '?' ∨ c = ':' →
    ∃ d more, rest = d :: more ∧ isGap d = false
  noStart : ['-', '-', '-'].isPrefixOf cs = false
  noEnd : ['.', '.', '.'].isPrefixOf cs = false

theorem noBreak_of_any {cs : List Char} (h : cs.any isBreak = false) :
    ∀ c ∈ cs, isBreak c = false :=
  fun c hc => Bool.eq_false_iff.mpr (List.any_eq_false.mp h c hc)

/-- What it means that a text may stand without quotes. -/
theorem plainAllowed_iff {cs : List Char} (h : plainAllowed cs = true) :
    PlainSafe cs ∧ BeginsPlain cs := by
  simp only [plainAllowed, Bool.and_eq_true, Bool.not_eq_true'] at h
  obtain ⟨⟨⟨hescapes, hbreak⟩, hragged⟩, hindicator⟩ := h
  have hprintable := (needsEscapes_eq_false_iff.mp hescapes).1
  have hnoBreak := noBreak_of_any hbreak
  simp only [isRagged, Bool.or_eq_false_iff] at hragged
  simp only [hasIndicator, hasInnerIndicator, Bool.or_eq_false_iff] at hindicator
  obtain ⟨⟨⟨hstart, hend⟩, ⟨hcolon, hhash⟩, hlast⟩, hfirst⟩ := hindicator
  refine ⟨⟨hprintable, hnoBreak, hcolon, hhash, ?_⟩, ⟨?_, ?_, ?_, hstart, hend⟩⟩
  · intro c hc
    rw [Option.mem_def] at hc
    rw [hc] at hlast hragged
    constructor
    · rintro rfl
      exact absurd hlast (by decide)
    · rintro rfl
      exact absurd hragged.2 (by decide)
  · intro c hc
    rw [Option.mem_def] at hc
    rw [hc] at hragged
    rintro rfl
    exact absurd hragged.1 (by decide)
  · intro c hc
    cases cs with
    | nil => exact nomatch hc
    | cons d cs =>
      obtain rfl : d = c := by simpa using hc
      exact (Bool.or_eq_false_iff.mp hfirst).1
  · rintro c rest rfl hmark
    have hc : (c == '?' || c == ':' || c == '-') = true := by
      rcases hmark with rfl | rfl | rfl <;> rfl
    simp only [Bool.or_eq_false_iff, hc, Bool.true_and] at hfirst
    cases rest with
    | nil => exact absurd hfirst.2 (by simp)
    | cons d more => exact ⟨d, more, rfl, hfirst.2⟩

end Style

namespace Scalar

/-! ## Words -/

/-- A word goes on up to where the next one cannot begin. -/
theorem takeWord_append {w tail : List Char} (hw : ∀ c ∈ w, isBlank c = false ∧ isBreak c = false)
    (hlast : ∀ c ∈ w.getLast?, c ≠ ':') (htail : takeWord false tail = some ([], tail)) :
    takeWord false (w ++ tail) = some (w, tail) := by
  induction w with
  | nil => exact htail
  | cons c w ih =>
    have hih := ih (fun d hd => hw d (List.mem_cons_of_mem _ hd)) (by
      intro d hd
      refine hlast d ?_
      rw [List.getLast?_cons, Option.mem_def.mp hd]
      rfl)
    obtain ⟨hblank, hbreak⟩ := hw c List.mem_cons_self
    rw [List.cons_append, takeWord.eq_def]
    simp only [hblank, hbreak, Bool.or_self, Bool.false_eq_true, if_false, Bool.and_false,
      Bool.false_and, Bool.or_false, hih, Option.map_some]
    rw [if_neg]
    rw [Bool.and_eq_true, beq_iff_eq]
    rintro ⟨rfl, hafter⟩
    cases w with
    | nil => exact hlast ':' rfl rfl
    | cons d w =>
      obtain ⟨hblank, hbreak⟩ := hw d (List.mem_cons_of_mem _ List.mem_cons_self)
      simp [hblank, hbreak] at hafter

theorem takeWord_gap {c : Char} {tail : List Char} (h : isBlank c = true ∨ isBreak c = true) :
    takeWord false (c :: tail) = some ([], c :: tail) := by
  rw [takeWord.eq_def]
  exact if_pos (by rw [Bool.or_eq_true]; exact h)

/-- A colon before a gap ends a word. -/
theorem takeWord_colon {tail : List Char} (h : ∀ c ∈ tail.head?, isBlank c = true ∨ isBreak c = true) :
    takeWord false (':' :: tail) = some ([], ':' :: tail) := by
  cases tail with
  | nil => rfl
  | cons d tail =>
    have hd : (isBlank d || isBreak d) = true := by
      rw [Bool.or_eq_true]
      exact h d rfl
    have hcolon : (isBlank ':' || isBreak ':') = false := rfl
    simp [takeWord, hcolon, hd]

/-! ## Where a scalar ends -/

/-- What stands after an unquoted scalar that is indented by more than `indent - 1`, the part of it
that the scanner takes along with the scalar, and whether that part has a break in it. -/
inductive EndsPlain (indent : Int) : List Char → List Char → Bool → Prop
  /-- The colon after a key. -/
  | colon {tail : List Char} (h : ∀ c ∈ tail.head?, isBlank c = true ∨ isBreak c = true) :
    EndsPlain indent (':' :: tail) [] false
  /-- The end of the line, after which something stands further out. -/
  | line {n : Nat} {tail : List Char} (hn : (n : Int) < indent) (h : EndsGap tail) :
    EndsPlain indent ('\n' :: (spaces n ++ tail)) ('\n' :: spaces n) true

theorem EndsPlain.takeWord_eq {indent : Int} {tail passed : List Char} {broken : Bool}
    (h : EndsPlain indent tail passed broken) : takeWord false tail = some ([], tail) := by
  cases h with
  | colon h => exact takeWord_colon h
  | line => exact takeWord_gap (.inr rfl)

/-! ## Word by word -/

theorem noBreak_of_word {w : List Char} (hw : ∀ c ∈ w, isBlank c = false ∧ isBreak c = false) :
    w.all (!isBreak ·) = true := by
  rw [List.all_eq_true]
  intro c hc
  rw [(hw c hc).2]
  rfl

theorem not_at_hash {w tail : List Char} {cur : Cursor} (h : cur.rest = w ++ tail) (hne : w ≠ [])
    (hhash : w.head? ≠ some '#') : cur.at? (· == '#') = false := by
  cases w with
  | nil => exact absurd rfl hne
  | cons c w =>
    rw [Cursor.at?_cons h]
    simpa using hhash

/-- The last word of a scalar. -/
theorem takePlain_lastWord {indent : Int} {w tail passed : List Char} {broken : Bool}
    (hw : ∀ c ∈ w, isBlank c = false ∧ isBreak c = false) (hne : w ≠ [])
    (hlast : ∀ c ∈ w.getLast?, c ≠ ':') (htail : EndsPlain indent tail passed broken)
    {fuel : Nat} {acc : List Char} {gap : Gap} {cur : Cursor} (h : cur.rest = w ++ tail)
    (hmark : cur.atDocumentMark = false) (hhash : w.head? ≠ some '#') :
    takePlain false indent (fuel + 1) acc gap cur =
      some (acc.reverse ++ gap.folded ++ w, broken, cur.pass (w ++ passed)) := by
  have hbreaks := noBreak_of_word hw
  have hat := not_at_hash h hne hhash
  have hword := takeWord_append hw hlast htail.takeWord_eq
  have hempty : w.isEmpty = false := by simpa using hne
  have hnext : (cur.pass w).rest = tail := Cursor.rest_pass_of_eq h
  rw [takePlain, hmark, hat, Bool.or_self, if_neg Bool.false_ne_true, h, hword]
  simp only [Option.bind_eq_bind, Option.bind_some, hempty, Bool.false_eq_true, if_false,
    Cursor.skip_eq_pass h hbreaks]
  cases htail with
  | colon htail =>
    have hcolon : (isBlank ':' || isBreak ':') = false := rfl
    rw [Cursor.at?_cons hnext, if_neg (by rw [hcolon]; exact Bool.false_ne_true)]
    simp
  | @line n tail hn htail =>
    have hfeed : (isBlank '\n' || isBreak '\n') = true := rfl
    have hgap := @takeGap_breaks indent '\n' [] n (cur.pass w).rest.length {} (cur.pass w) tail rfl
      rfl rfl hnext htail (by rw [hnext]; simp only [List.length_append, List.length_cons, List.length_nil, length_spaces]; omega)
    have hcolumn : ((cur.pass w).pass ('\n' :: ([] ++ spaces n))).column = n := by
      rw [List.nil_append, Cursor.column_pass_break rfl (noBreak_spaces n), length_spaces]
    rw [Cursor.at?_cons hnext, if_pos hfeed, hgap]
    simp only [Option.bind_some, hcolumn, Bool.not_false, Bool.true_and, decide_eq_true_eq]
    rw [if_pos hn]
    simp [Cursor.pass_append]

/-- A word with spaces after it: the scanner goes on with the word after them. -/
theorem takePlain_word {indent : Int} {w tail : List Char} {k : Nat}
    (hw : ∀ c ∈ w, isBlank c = false ∧ isBreak c = false) (hne : w ≠ [])
    (hlast : ∀ c ∈ w.getLast?, c ≠ ':') (htail : EndsGap tail)
    {fuel : Nat} {acc : List Char} {gap : Gap} {cur : Cursor}
    (h : cur.rest = w ++ (spaces (k + 1) ++ tail)) (hcolumn : indent ≤ cur.column + 1)
    (hmark : cur.atDocumentMark = false) (hhash : w.head? ≠ some '#') :
    takePlain false indent (fuel + 1) acc gap cur =
      takePlain false indent fuel (w.reverse ++ gap.folded.reverse ++ acc)
        { blanks := spaces (k + 1) } (cur.pass (w ++ spaces (k + 1))) := by
  have hbreaks := noBreak_of_word hw
  have hat := not_at_hash h hne hhash
  have hword := takeWord_append hw hlast (@takeWord_gap ' ' (spaces k ++ tail) (.inl rfl))
  have hempty : w.isEmpty = false := by simpa using hne
  have hnext : (cur.pass w).rest = spaces (k + 1) ++ tail := Cursor.rest_pass_of_eq h
  have hblank : (isBlank ' ' || isBreak ' ') = true := rfl
  have hgap := @takeGap_spaces indent (k + 1) (cur.pass w).rest.length {} (cur.pass w) tail rfl
    hnext htail (by rw [hnext]; simp)
  have hafter : ((cur.pass w).pass (spaces (k + 1))).column = cur.column + w.length + (k + 1) := by
    rw [Cursor.column_pass_of_noBreak (noBreak_spaces _), Cursor.column_pass_of_noBreak hbreaks,
      length_spaces]
  rw [takePlain, hmark, hat, Bool.or_self, if_neg Bool.false_ne_true, h]
  rw [spaces_succ, List.cons_append, hword]
  simp only [Option.bind_eq_bind, Option.bind_some, hempty, Bool.false_eq_true, if_false,
    Cursor.skip_eq_pass h hbreaks]
  rw [Cursor.at?_cons hnext, if_pos hblank, hgap]
  simp only [Option.bind_some, hafter, Bool.not_false, Bool.true_and, decide_eq_true_eq]
  rw [if_neg (by omega)]
  simp [Cursor.pass_append, spaces_succ]

/-- A word of a text that has no blanks but spaces, and no breaks. -/
theorem isWord_of_printable {cs w : List Char} (hcs : PlainSafe cs) (hsub : ∀ c ∈ w, c ∈ cs)
    (hw : ∀ c ∈ w, c ≠ ' ') : ∀ c ∈ w, isBlank c = false ∧ isBreak c = false := by
  intro c hc
  refine ⟨Bool.eq_false_iff.mpr fun hb => hw c hc ?_, hcs.noBreak c (hsub c hc)⟩
  exact eq_space_of_isBlank (hcs.printable c (hsub c hc)) hb

/-- A text is taken word by word up to what ends it. -/
theorem takePlain_text {indent : Int} (cs : List Char) (hsafe : PlainSafe cs) (hne : cs ≠ [])
    (hspace : ∀ c ∈ cs.head?, c ≠ ' ') {tail passed : List Char} {broken : Bool}
    (htail : EndsPlain indent tail passed broken) {fuel : Nat} {acc : List Char} {gap : Gap}
    {cur : Cursor} (h : cur.rest = cs ++ tail) (hcolumn : indent ≤ cur.column + 1)
    (hmark : cur.atDocumentMark = false) (hhash : cs.head? ≠ some '#') (hfuel : cs.length < fuel) :
    takePlain false indent fuel acc gap cur =
      some (acc.reverse ++ gap.folded ++ cs, broken, cur.pass (cs ++ passed)) := by
  induction hn : cs.length using Nat.strongRecOn generalizing cs acc gap fuel cur with
  | ind n ih =>
    subst hn
    obtain ⟨fuel, rfl⟩ : ∃ m, fuel = m + 1 := ⟨fuel - 1, by omega⟩
    obtain ⟨w, ds, rfl, hwall, hds⟩ := exists_run_append (· != ' ') cs
    have hw : ∀ c ∈ w, c ≠ ' ' := fun c hc => by simpa using List.all_eq_true.mp hwall c hc
    have hwne : w ≠ [] := by
      rintro rfl
      cases ds with
      | nil => exact hne rfl
      | cons d ds => exact hspace d rfl (by simpa using hds d rfl)
    have hword := isWord_of_printable hsafe (fun c hc => List.mem_append_left ds hc) hw
    have hwhash : w.head? ≠ some '#' := by
      rwa [List.head?_append_of_ne_nil _ hwne] at hhash
    cases ds with
    | nil =>
      rw [List.append_nil] at h hsafe ⊢
      exact takePlain_lastWord hword hwne (fun c hc => (hsafe.endsWord c hc).1) htail h hmark hwhash
    | cons d ds =>
      obtain rfl : d = ' ' := by simpa using hds d rfl
      obtain ⟨k, es, rfl, hes⟩ := exists_spaces_append ds
      have hsplit : w ++ ' ' :: (spaces k ++ es) = w ++ (spaces (k + 1) ++ es) := rfl
      rw [hsplit] at hsafe
      obtain ⟨hesSafe, hesne, hesHash⟩ := hsafe.after_spaces
      have hesGap := hesSafe.endsGap hesne hes tail
      have hrest : cur.rest = w ++ (spaces (k + 1) ++ (es ++ tail)) := by
        rw [h, hsplit, List.append_assoc, List.append_assoc]
      have hnext : (cur.pass (w ++ spaces (k + 1))).rest = es ++ tail :=
        Cursor.rest_pass_of_eq (by rw [hrest, List.append_assoc])
      have hafter : (cur.pass (w ++ spaces (k + 1))).column = cur.column + w.length + (k + 1) := by
        rw [Cursor.pass_append, Cursor.column_pass_of_noBreak (noBreak_spaces _),
          Cursor.column_pass_of_noBreak (noBreak_of_word hword), length_spaces]
      rw [takePlain_word hword hwne hsafe.ne_colon hesGap hrest hcolumn hmark hwhash]
      have hlength : (w ++ ' ' :: (spaces k ++ es)).length = w.length + (k + 1) + es.length := by
        rw [hsplit]
        simp
        omega
      rw [@ih es.length (by omega) es hesSafe hesne hes fuel _ _ _ hnext (by rw [hafter]; omega)
        (Cursor.atDocumentMark_of_column_ne (by rw [hafter]; omega)) hesHash (by omega) rfl]
      simp [Gap.folded_blanks, spaces_succ, ← Cursor.pass_append]

/-- A text that may stand without quotes is read back, together with what ends it. -/
theorem plain_text {indent : Int} {s : String} (hsafe : PlainSafe s.toList)
    (hbegins : BeginsPlain s.toList) (hne : s.toList ≠ []) {tail passed : List Char} {broken : Bool}
    (htail : EndsPlain indent tail passed broken) {cur : Cursor} (h : cur.rest = s.toList ++ tail)
    (hcolumn : indent ≤ cur.column + 1) (hmark : cur.atDocumentMark = false) :
    plain false indent cur = some (s, broken, cur.pass (s.toList ++ passed)) := by
  have hhash : s.toList.head? ≠ some '#' := by
    intro hhead
    exact absurd (hbegins.indicator '#' hhead) (by decide)
  have hfuel : s.toList.length < cur.rest.length + 1 := by
    rw [h, List.length_append]
    omega
  rw [plain, takePlain_text s.toList hsafe hne hbegins.ne_space htail h hcolumn hmark hhash hfuel]
  simp [Gap.folded]

end Scalar

end RouteFleet.Yaml
