import RouteFleet.Proofs.Yaml.Literal
import RouteFleet.Proofs.Yaml.Plain
import RouteFleet.Proofs.Yaml.Quoted
import RouteFleet.Proofs.Yaml.Round
import RouteFleet.Proofs.Yaml.Tag

/-! # Scanning scalars and tags

What one round of the scanner makes of a scalar in each style (`Scan.next_quoted`, `Scan.next_plain`,
`Scan.next_literal`) and of a tag (`Scan.next_tag`). Where a key may begin, its spot is remembered
before the token.
-/

namespace RouteFleet.Yaml

open Text Style Value

/-! ## Marks of documents -/

namespace Cursor

theorem atDocumentMark_eq_false {cur : Cursor} (hstart : ['-', '-', '-'].isPrefixOf cur.rest = false)
    (hend : ['.', '.', '.'].isPrefixOf cur.rest = false) : cur.atDocumentMark = false := by
  rw [atDocumentMark, hstart, hend]
  simp

theorem atDocumentMark_of_head {c : Char} {tail : List Char} {cur : Cursor}
    (h : cur.rest = c :: tail) (hdash : c ≠ '-') (hdot : c ≠ '.') :
    cur.atDocumentMark = false := by
  refine atDocumentMark_eq_false ?_ ?_
  · rw [h]
    simp [List.isPrefixOf, hdash.symm]
  · rw [h]
    simp [List.isPrefixOf, hdot.symm]

/-- A dash alone begins no document. -/
theorem atDocumentMark_of_dash {c : Char} {tail : List Char} {cur : Cursor}
    (h : cur.rest = '-' :: c :: tail) (hdash : c ≠ '-') : cur.atDocumentMark = false := by
  refine atDocumentMark_eq_false ?_ ?_
  · rw [h]
    simp [List.isPrefixOf, hdash.symm]
  · rw [h]
    simp [List.isPrefixOf]

/-- A text that begins with the mark of a document's start or end is not written without quotes, and
what follows a text does not complete such a mark. -/
theorem atDocumentMark_of_beginsPlain {cs tail : List Char} (h : BeginsPlain cs) {cur : Cursor}
    (hrest : cur.rest = cs ++ tail) (hdash : ∀ c ∈ tail.head?, c ≠ '-' ∧ c ≠ '.') :
    cur.atDocumentMark = false := by
  have hmark : ∀ d, (∀ c ∈ tail.head?, c ≠ d) → [d, d, d].isPrefixOf cs = false →
      [d, d, d].isPrefixOf cur.rest = false := by
    intro d hd hcs
    rw [Bool.eq_false_iff, ne_eq, List.isPrefixOf_iff_prefix] at hcs ⊢
    rw [hrest]
    have htail : ∀ more, ¬ d :: more <+: tail := by
      rintro more ⟨rest, rfl⟩
      exact hd d rfl rfl
    match cs with
    | [] => exact htail [d, d]
    | [a] => simpa using fun _ => htail [d]
    | [a, b] => simpa using fun _ _ => htail []
    | a :: b :: c :: cs => simpa using hcs
  exact atDocumentMark_eq_false (hmark '-' (fun c hc => (hdash c hc).1) h.noStart)
    (hmark '.' (fun c hc => (hdash c hc).2) h.noEnd)

end Cursor

namespace Scan

/-! ## Remembering where a key may have begun -/

/-- The scan with the place of its cursor remembered, if a key may begin there. -/
def withSpot (s : Scan) : Scan :=
  if s.keyAllowed then
    { s with spots := [some {
        token := s.tokens.size
        required := s.indent == s.cursor.column
        index := s.cursor.index
        line := s.cursor.line
        column := s.cursor.column }] }
  else s

theorem dropSpot_eq {s : Scan} {o : Option KeySpot} (ho : s.spots = [o])
    (hpending : Pending s.cursor o) : s.dropSpot = some { s with spots := [none] } := by
  rw [dropSpot, ho]
  cases o with
  | none => simp [← ho]
  | some spot => simp [(hpending spot rfl).1]

/-- Whether the place of a token may be remembered: there is no other that must not be given up. -/
def CanSave (s : Scan) (o : Option KeySpot) : Prop := s.keyAllowed = true → Pending s.cursor o

theorem saveSpot_eq {s : Scan} {o : Option KeySpot} (ho : s.spots = [o]) (hsave : CanSave s o) :
    s.saveSpot = some s.withSpot := by
  rw [saveSpot, withSpot]
  cases hkey : s.keyAllowed with
  | false => rfl
  | true =>
    rw [if_pos rfl, if_pos rfl, dropSpot_eq ho (hsave hkey)]
    simp [inFlow, hkey]

@[simp] theorem withSpot_cursor (s : Scan) : s.withSpot.cursor = s.cursor := by
  rw [withSpot]
  split <;> rfl

@[simp] theorem withSpot_tokens (s : Scan) : s.withSpot.tokens = s.tokens := by
  rw [withSpot]
  split <;> rfl

@[simp] theorem withSpot_indent (s : Scan) : s.withSpot.indent = s.indent := by
  rw [withSpot]
  split <;> rfl

@[simp] theorem withSpot_outer (s : Scan) : s.withSpot.outer = s.outer := by
  rw [withSpot]
  split <;> rfl

theorem withSpot_update (s : Scan) (cur : Cursor) (tokens : Array Token)
    (spots : List (Option KeySpot)) (keyAllowed : Bool) :
    { s.withSpot with
      cursor := cur
      tokens := tokens
      spots := spots
      keyAllowed := keyAllowed } =
    { s with cursor := cur, tokens := tokens, spots := spots, keyAllowed := keyAllowed } := by
  rw [withSpot]
  split <;> rfl

theorem withSpot_eq {s : Scan} {o : Option KeySpot} (hspot : s.withSpot.spots = [o])
    (cur : Cursor) (tokens : Array Token) (keyAllowed : Bool) :
    { s.withSpot with cursor := cur, tokens := tokens, keyAllowed := keyAllowed } =
    { s with cursor := cur, tokens := tokens, spots := [o], keyAllowed := keyAllowed } := by
  rw [← withSpot_update s cur tokens, ← hspot]

theorem inFlow_withSpot {s : Scan} {o : Option KeySpot} (ho : s.spots = [o]) :
    s.withSpot.inFlow = false := by
  rw [inFlow, withSpot]
  split
  · rfl
  · rw [ho]
    rfl

/-- What is remembered is pending where a key need not begin. -/
theorem pending_withSpot {s : Scan} {o : Option KeySpot} (ho : s.spots = [o])
    (hpending : Pending s.cursor o) (hcolumn : s.indent ≠ s.cursor.column) :
    ∃ o', s.withSpot.spots = [o'] ∧ Pending s.cursor o' := by
  cases hkey : s.keyAllowed with
  | false => exact ⟨o, by rw [withSpot, hkey, if_neg Bool.false_ne_true, ho], hpending⟩
  | true =>
    refine ⟨_, by rw [withSpot, hkey, if_pos rfl], ?_⟩
    intro spot hspot
    obtain rfl := Option.some.inj hspot
    exact ⟨by simpa using hcolumn, Nat.le_refl _⟩

/-! ## Tokens at which a key may begin -/

theorem word_eq {s : Scan} {o : Option KeySpot} (ho : s.spots = [o])
    (hsave : CanSave s o) {take : Cursor → Option (Token × Cursor)} {t : Token}
    {cur : Cursor} (htake : take s.cursor = some (t, cur)) : s.word take =
      some { s.withSpot with cursor := cur, tokens := s.tokens.push t, keyAllowed := false } := by
  rw [word, saveSpot_eq ho hsave]
  simp [htake, allowKey, emit]

theorem word_eq_none {s : Scan} {o : Option KeySpot} (ho : s.spots = [o])
    (hsave : CanSave s o) {take : Cursor → Option (Token × Cursor)}
    (htake : take s.cursor = none) : s.word take = none := by
  rw [word, saveSpot_eq ho hsave]
  simp [htake]

theorem inFlow_eq_false {s : Scan} {o : Option KeySpot} (ho : s.spots = [o]) :
    s.inFlow = false := by
  rw [inFlow, ho]
  rfl

theorem exists_writeTag (t : String) : ∃ cs, writeTag t = '!' :: cs := by
  obtain ⟨name, hname⟩ := Token.exists_markedTag t
  cases name with
  | nil => exact ⟨_, by rw [writeTag, hname]; rfl⟩
  | cons c name => exact ⟨_, by rw [writeTag, hname]⟩

theorem next_mark {s : Scan} {tail : List Char} (h : s.cursor.rest = '!' :: tail)
    {o : Option KeySpot} (ho : s.spots = [o]) : s.next '!' = s.word (Token.takeTag false) := by
  have hmark := Cursor.atDocumentMark_of_head h (by decide) (by decide)
  simp [next, hmark, inFlow_eq_false ho]

/-- A tag that is written. -/
theorem next_tag {s : Scan} {tail : List Char} {t : String} (h : s.cursor.rest = writeTag t ++ tail)
    (htail : BeginsGap tail) {o : Option KeySpot} (ho : s.spots = [o])
    (hsave : CanSave s o) (ht : ∀ c ∈ markedTag t, Token.isFlowMark c = false) :
    s.next '!' = some { s.withSpot with
      cursor := s.cursor.pass (writeTag t)
      tokens := s.tokens.push (Token.ofTag t)
      keyAllowed := false } := by
  obtain ⟨cs, hcs⟩ := exists_writeTag t
  rw [next_mark (by rw [h, hcs]; rfl) ho, word_eq ho hsave (Token.takeTag_writeTag ht htail h)]

/-- A tag that the scanner does not take as it is written. -/
theorem next_tag_eq_none {s : Scan} {tail : List Char} {t : String}
    (h : s.cursor.rest = writeTag t ++ tail) {o : Option KeySpot} (ho : s.spots = [o])
    (hsave : CanSave s o) (ht : ∃ c ∈ markedTag t, Token.isFlowMark c = true) :
    s.next '!' = none := by
  obtain ⟨cs, hcs⟩ := exists_writeTag t
  rw [next_mark (by rw [h, hcs]; rfl) ho, word_eq_none ho hsave (Token.takeTag_eq_none ht h)]

/-- A quote begins a scalar between quotes. -/
theorem next_quote {s : Scan} {c : Char} (hc : c = '"' ∨ c = '\x27') {tail : List Char}
    (h : s.cursor.rest = c :: tail) : s.next c = s.word fun cur =>
      (Scalar.quoted cur).map fun p => (.scalar false p.1, p.2) := by
  rcases hc with rfl | rfl
  · have hmark : s.cursor.atDocumentMark = false :=
      Cursor.atDocumentMark_of_head h (by decide) (by decide)
    simp [next, hmark]
  · have hmark : s.cursor.atDocumentMark = false :=
      Cursor.atDocumentMark_of_head h (by decide) (by decide)
    simp [next, hmark]

/-- A scalar between double quotes. -/
theorem next_doubleQuoted {s : Scan} {indent : Nat} {text : String} {tail : List Char}
    (h : s.cursor.rest = Style.write indent text .doubleQuoted ++ tail) {o : Option KeySpot}
    (ho : s.spots = [o]) (hsave : CanSave s o) : s.next '"' = some { s.withSpot with
      cursor := s.cursor.pass (Style.write indent text .doubleQuoted)
      tokens := s.tokens.push (.scalar false text)
      keyAllowed := false } := by
  rw [next_quote (.inl rfl) (by rw [h]; rfl), word_eq ho hsave]
  rw [Scalar.quoted_doubleQuoted indent text h]
  rfl

/-- A scalar between single quotes. -/
theorem next_singleQuoted {s : Scan} {indent : Nat} (hindent : indent ≠ 0) {text : String}
    (hsafe : Scalar.SingleSafe text.toList) {tail : List Char}
    (htail : tail.head? ≠ some '\x27')
    (h : s.cursor.rest = Style.write indent text .singleQuoted ++ tail) {o : Option KeySpot}
    (ho : s.spots = [o]) (hsave : CanSave s o) : s.next '\x27' = some { s.withSpot with
      cursor := s.cursor.pass (Style.write indent text .singleQuoted)
      tokens := s.tokens.push (.scalar false text)
      keyAllowed := false } := by
  rw [next_quote (.inr rfl) (by rw [h]; rfl), word_eq ho hsave]
  rw [Scalar.quoted_singleQuoted hindent hsafe htail h]
  rfl

/-! ## Unquoted scalars and blocks -/

/-- What is no indicator is none of the marks that mean something anywhere. -/
theorem beq_mark_eq_false {c d : Char} (h : isIndicator c = false)
    (hd : d ∈ ",[]\x7b\x7d#&*!|>'\"%@".toList) : (c == d) = false := by
  simp only [isIndicator, Bool.or_eq_false_iff] at h
  rw [beq_eq_false_iff_ne]
  rintro rfl
  have hmem := List.contains_iff_mem.mpr hd
  rw [h.1] at hmem
  exact Bool.false_ne_true hmem

/-- What is no indicator, and none of the marks that need a gap after them, begins an unquoted scalar. -/
theorem beginsPlain_eq_true {s : Scan} {c : Char} (hindicator : isIndicator c = false)
    (hblank : isBlank c = false) (hbreak : isBreak c = false)
    (hc : c ≠ '-' ∧ c ≠ '?' ∧ c ≠ ':') : s.beginsPlain c = true := by
  have hlist : "-?:,[]\x7b\x7d#&*!|>'\"%@".toList.contains c = false := by
    rw [Bool.eq_false_iff, ne_eq, List.contains_iff_mem]
    intro hmem
    rcases List.mem_append.mp (show c ∈ ['-', '?', ':'] ++ ",[]\x7b\x7d#&*!|>'\"%@".toList from
      hmem) with hmem | hmem
    · simp [hc] at hmem
    · simpa using beq_mark_eq_false hindicator hmem
  simp only [isIndicator, Bool.or_eq_false_iff] at hindicator
  rw [beginsPlain, hblank, hbreak, hlist, hindicator.2]
  rfl

/-- A character with which a text is written without quotes begins an unquoted scalar. -/
theorem next_eq_plainWord {s : Scan} {c : Char} {cs tail : List Char}
    (hsafe : PlainSafe (c :: cs)) (hbegins : BeginsPlain (c :: cs))
    (h : s.cursor.rest = c :: cs ++ tail) (hmark : s.cursor.atDocumentMark = false)
    {o : Option KeySpot} (ho : s.spots = [o]) : s.next c = s.plainWord := by
  have hflow := inFlow_eq_false ho
  by_cases hc : c = '-' ∨ c = '?' ∨ c = ':'
  · -- After a dash, a question mark or a colon the word goes on.
    obtain ⟨d, more, rfl, hd⟩ := hbegins.mark c cs rfl hc
    simp only [isGap, Bool.or_eq_false_iff] at hd
    have hgapAt : s.cursor.gapAt 1 = false := by
      rw [Cursor.gapAt, h]
      simp [hd.1.1, hd.1.2]
    have hany : s.cursor.rest[1]?.any isBlank = false := by
      rw [h]
      simp [hd.1.1]
    rcases hc with rfl | rfl | rfl <;> simp [next, hmark, hflow, hgapAt, hany, beginsPlain]
  · simp only [not_or] at hc
    have hindicator : isIndicator c = false := hbegins.indicator c rfl
    have hblank : isBlank c = false := Bool.eq_false_iff.mpr fun hb =>
      hbegins.ne_space c rfl (eq_space_of_isBlank (hsafe.printable c List.mem_cons_self) hb)
    have hplain := @beginsPlain_eq_true s c hindicator hblank
      (hsafe.noBreak c List.mem_cons_self) hc
    have hne : ∀ d ∈ ",[]\x7b\x7d#&*!|>'\"%@".toList, (c == d) = false :=
      fun d hd => beq_mark_eq_false hindicator hd
    have hdash : (c == '-') = false := by simpa using hc.1
    have hquestion : (c == '?') = false := by simpa using hc.2.1
    have hcolon : (c == ':') = false := by simpa using hc.2.2
    rw [next]
    simp only [hmark, hne '%' (by decide), hne '[' (by decide), hne ']' (by decide),
      hne '\x7b' (by decide), hne '\x7d' (by decide), hne ',' (by decide), hne '*' (by decide),
      hne '&' (by decide), hne '!' (by decide), hne '|' (by decide), hne '>' (by decide),
      hne '\x27' (by decide), hne '"' (by decide), hdash, hquestion, hcolon, hplain, Bool.and_false,
      Bool.false_and, Bool.or_self, Bool.false_eq_true, if_false, if_true]

/-- A scalar without quotes, with what ends it. -/
theorem next_plain {s : Scan} {text : String} (hsafe : PlainSafe text.toList)
    (hbegins : BeginsPlain text.toList) {c : Char} {cs : List Char} (hcs : text.toList = c :: cs)
    {tail passed : List Char} {broken : Bool}
    (htail : Scalar.EndsPlain (s.indent + 1) tail passed broken)
    (h : s.cursor.rest = text.toList ++ tail) (hcolumn : s.indent ≤ s.cursor.column)
    {o : Option KeySpot} (ho : s.spots = [o]) (hsave : CanSave s o) :
    s.next c = some { s.withSpot with
      cursor := s.cursor.pass (text.toList ++ passed)
      tokens := s.tokens.push (.scalar true text)
      keyAllowed := broken } := by
  have hmark : s.cursor.atDocumentMark = false := by
    refine Cursor.atDocumentMark_of_beginsPlain hbegins h ?_
    cases htail with
    | colon => simp
    | line => simp
  have hflow := inFlow_eq_false ho
  have hplain := Scalar.plain_text hsafe hbegins (by rw [hcs]; exact List.cons_ne_nil _ _) htail h
    (by omega) hmark
  rw [next_eq_plainWord (hcs ▸ hsafe) (hcs ▸ hbegins) (by rw [h, hcs]) hmark ho, plainWord,
    saveSpot_eq ho hsave]
  simp only [Option.bind_eq_bind, Option.bind_some, inFlow_withSpot ho, withSpot_indent,
    withSpot_cursor, hplain]
  simp [allowKey, emit]

/-- A literal block, with the end of its last line. -/
theorem next_literal {s : Scan} {n k : Nat} (hindent : s.indent = n) (hk : k ≤ n) {text : String}
    (hne : text.toList ≠ []) (hprintable : ∀ c ∈ text.toList, isPrintable c = true)
    {tail : List Char} (htail : EndsGap tail)
    (h : s.cursor.rest =
      Style.write (n + 2) text .literal ++ (endLine text.toList ++ (spaces k ++ tail)))
    {o : Option KeySpot} (ho : s.spots = [o]) (hpending : Pending s.cursor o) :
    s.next '|' = some { s with
      cursor := s.cursor.pass
        (Style.write (n + 2) text .literal ++ (endLine text.toList ++ spaces k))
      tokens := s.tokens.push (.scalar false text)
      spots := [none]
      keyAllowed := true } := by
  have hmark : s.cursor.atDocumentMark = false :=
    Cursor.atDocumentMark_of_head (by rw [h]; rfl) (by decide) (by decide)
  have hnext : s.next '|' = s.blockWord := by
    simp [next, hmark, inFlow_eq_false ho]
  rw [hnext, blockWord, dropSpot_eq ho hpending]
  simp [hindent, Scalar.block_literal hk hne hprintable htail h, allowKey, emit]

end Scan

end RouteFleet.Yaml
