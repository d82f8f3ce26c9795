import RouteFleet.Proofs.Yaml.Leaf
import RouteFleet.Proofs.Yaml.Number

/-! # Scanning written scalars

The style in which a scalar is written suits it (`Value.suits_style`), so the scanner comes from the
scalar's text to the place after the line with one token (`Scan.leads_scalar`), and from a key's text
to the colon after it (`Scan.leads_scalarKey`).
-/

namespace RouteFleet.Yaml

open Text Style Value

/-! ## Styles that suit a text -/

namespace Style

/-- Whether a text that is written in a style is read back. -/
inductive Suits (s : String) : Style → Prop
  | plain (hsafe : PlainSafe s.toList) (hbegins : BeginsPlain s.toList) (hne : s.toList ≠ []) :
    Suits s .plain
  | singleQuoted (hsafe : Scalar.SingleSafe s.toList) : Suits s .singleQuoted
  | doubleQuoted : Suits s .doubleQuoted
  | literal (hne : s.toList ≠ []) (hprintable : ∀ c ∈ s.toList, isPrintable c = true) :
    Suits s .literal

theorem Suits.of_plainAllowed {s : String} (h : plainAllowed s.toList = true)
    (hne : s.toList ≠ []) : Suits s .plain :=
  have ⟨hsafe, hbegins⟩ := plainAllowed_iff h
  .plain hsafe hbegins hne

/-- The style that is chosen for a text suits it. -/
theorem suits_ofText (s : String) : Suits s (ofText s) := by
  rw [ofText]
  split
  · rename_i hfeed
    rw [List.contains_iff_mem] at hfeed
    split
    · rename_i h
      rw [literalAllowed, Bool.and_eq_true, Bool.not_eq_true', needsEscapes_eq_false_iff] at h
      exact .literal (List.ne_nil_of_mem hfeed) h.1.1
    · exact .doubleQuoted
  · rename_i hfeed
    rw [List.contains_iff_mem] at hfeed
    split
    · rename_i h
      rw [Bool.and_eq_true] at h
      refine .of_plainAllowed h.1 ?_
      intro hnil
      obtain rfl : s = "" := by simpa using hnil
      exact absurd h.2 (by decide)
    split
    · rename_i h
      rw [singleQuotedAllowed, Bool.and_eq_true, Bool.not_eq_true', Bool.not_eq_true',
        needsEscapes_eq_false_iff] at h
      exact .singleQuoted ⟨h.1.1, hfeed, h.1.2, h.2⟩
    · exact .doubleQuoted

end Style

namespace Value

/-- Whether a value is not a collection and has no tag. -/
def isScalar : Value → Bool
  | .null | .bool _ | .number _ | .string _ => true
  | _ => false

/-- The style in which a scalar is written. -/
def style : Value → Style
  | .string s => Style.ofText s
  | _ => .plain

/-- The token of a scalar. -/
def scalarToken (v : Value) : Token := .scalar (decide (v.style = .plain)) v.scalarText

theorem writeScalar_eq {v : Value} (h : v.isScalar = true) (indent : Nat) :
    writeScalar indent v = Style.write indent v.scalarText v.style := by
  cases v with
  | null => rfl
  | bool b => cases b <;> rfl
  | number n => rfl
  | string s => rfl
  | _ => exact nomatch h

/-- The style in which a scalar is written suits it. -/
theorem suits_style {v : Value} (h : v.isScalar = true) : Suits v.scalarText v.style := by
  cases v with
  | null => exact .of_plainAllowed (by decide) (by decide)
  | bool b => cases b <;> exact .of_plainAllowed (by decide) (by decide)
  | number n =>
    exact .of_plainAllowed (plainAllowed_writeNumber n) (writeNumber_ne_nil n)
  | string s => exact suits_ofText s
  | _ => exact nomatch h

end Value

/-! ## Texts of scalars -/

namespace Style

theorem endLine_write {s : String} {st : Style} (h : Suits s st) (indent : Nat) :
    endLine (write indent s st) =
      if st = .literal then endLine s.toList else ['\n'] := by
  cases h with
  | plain hsafe => exact endLine_of_noBreak hsafe.all_noBreak
  | singleQuoted => exact endLine_append _ (List.cons_ne_nil _ _)
  | doubleQuoted => exact endLine_append _ (List.cons_ne_nil _ _)
  | literal hne =>
    have hbody : literalBody indent true s.toList ≠ [] := by
      rw [ne_eq, ← List.getLast?_eq_none_iff, Scalar.getLast?_literalBody, List.getLast?_eq_none_iff]
      exact hne
    have hsplit : write indent s .literal =
        ('|' :: literalHints s.toList ++ ['\n']) ++ literalBody indent true s.toList := by
      simp [write]
    rw [hsplit, endLine_append _ hbody, if_pos rfl, endLine, endLine, Scalar.getLast?_literalBody]

theorem length_write_pos {s : String} {st : Style} (h : Suits s st) (indent : Nat) :
    0 < (write indent s st).length := by
  cases h with
  | plain _ _ hne => exact List.length_pos_iff.mpr hne
  | _ => simp [write]

/-- What is written for a text does not begin with a gap or a comment. -/
theorem fresh_write {s : String} {st : Style} (h : Suits s st) (indent : Nat) (tail : List Char) :
    Scan.Fresh (write indent s st ++ tail) := by
  cases h with
  | plain hsafe hbegins hne =>
    obtain ⟨c, cs, hcs⟩ := List.exists_cons_of_ne_nil hne
    have hmem : c ∈ s.toList := hcs ▸ List.mem_cons_self
    have hprintable := hsafe.printable c hmem
    have hhead : s.toList.head? = some c := by rw [hcs]; rfl
    rw [write, hcs]
    refine Scan.fresh_cons.mpr ⟨?_, hsafe.noBreak c hmem, ?_, ?_⟩
    · exact Bool.eq_false_iff.mpr fun hb =>
        hbegins.ne_space c hhead (eq_space_of_isBlank hprintable hb)
    · rintro rfl
      exact absurd (hbegins.indicator '#' hhead) (by decide)
    · intro hmark
      simp [isPrintable, hmark] at hprintable
  | singleQuoted => exact Scan.fresh_cons.mpr (by decide)
  | doubleQuoted => exact Scan.fresh_cons.mpr (by decide)
  | literal => exact Scan.fresh_cons.mpr (by decide)

end Style

namespace Scan

/-- A scalar that is not a block, at which a key may begin: what follows it is a colon, or the end of
the line, and of the latter the scanner takes as much along as `passed` says. -/
theorem next_write {s : Scan} {indent : Nat} (hindent : indent ≠ 0) {text : String} {st : Style}
    (h : Suits text st) (hst : st ≠ .literal) {tail passed : List Char} {broken : Bool}
    (htail : Scalar.EndsPlain (s.indent + 1) tail passed broken)
    (hrest : s.cursor.rest = Style.write indent text st ++ tail)
    (hcolumn : s.indent ≤ s.cursor.column) {o : Option KeySpot} (ho : s.spots = [o])
    (hsave : CanSave s o) : ∃ c cs, s.cursor.rest = c :: cs ∧
      s.next c = some { s.withSpot with
        cursor := s.cursor.pass (Style.write indent text st ++ if st = .plain then passed else [])
        tokens := s.tokens.push (.scalar (decide (st = .plain)) text)
        keyAllowed := decide (st = .plain) && broken } := by
  cases h with
  | plain hsafe hbegins hne =>
    obtain ⟨c, cs, hcs⟩ := List.exists_cons_of_ne_nil hne
    refine ⟨c, cs ++ tail, by rw [hrest, Style.write, hcs]; rfl, ?_⟩
    exact next_plain hsafe hbegins hcs htail hrest hcolumn ho hsave
  | singleQuoted hsafe =>
    refine ⟨'\x27', _, hrest, ?_⟩
    have hquote : tail.head? ≠ some '\x27' := by
      cases htail <;> simp
    rw [next_singleQuoted hindent hsafe hquote hrest ho hsave]
    simp
  | doubleQuoted =>
    refine ⟨'"', _, hrest, ?_⟩
    rw [next_doubleQuoted hrest ho hsave]
    simp
  | literal => exact absurd rfl hst

/-- Where nothing but spaces stands before a token that may begin where the block does or further in,
that token is taken. -/
theorem ready?_pending {s : Scan} {j : Nat} {tail : List Char} (htail : Fresh tail)
    (hrest : s.cursor.rest = spaces j ++ tail) (hcolumn : s.indent ≤ s.cursor.column)
    {o : Option KeySpot} (ho : s.spots = [o]) (hpending : Pending s.cursor o) :
    ∃ o', Pending (s.cursor.pass (spaces j)) o' ∧
      ready? s = some { s with cursor := s.cursor.pass (spaces j), spots := [o'] } := by
  have hline : s.cursor.line ≤ (s.cursor.pass (spaces j)).line :=
    Nat.le_of_eq (Cursor.line_pass_of_noBreak (noBreak_spaces j) _).symm
  obtain ⟨o', ho', hexpire⟩ := expire_pending (hpending.mono hline)
  refine ⟨o', ho', ?_⟩
  rw [ready?_spaces htail hrest (ho ▸ hexpire), unroll_of_le]
  rw [Cursor.column_pass_of_noBreak (noBreak_spaces j)]
  simp
  omega

section Line

variable {s r : Scan} {n k : Nat} {text : String} {st : Style} {tail : List Char}
  {o : Option KeySpot}

/-- A block is taken with the end of its last line. -/
theorem leads_literal (hready : ready? s = some r)
    (hlength : r.cursor.rest.length ≤ s.cursor.rest.length) (hindent : r.indent = n) (hk : k ≤ n)
    (hne : text.toList ≠ []) (hprintable : ∀ c ∈ text.toList, isPrintable c = true)
    (htail : Fresh tail) (hrest : r.cursor.rest =
      Style.write (n + 2) text .literal ++ (endLine text.toList ++ (spaces k ++ tail)))
    (ho : r.spots = [o]) (hpending : Pending r.cursor o) : Leads s { r with
      cursor := r.cursor.pass (Style.write (n + 2) text .literal ++ (endLine text.toList ++ spaces k))
      tokens := r.tokens.push (.scalar false text)
      spots := [none]
      keyAllowed := true } := by
  refine Leads.of_next hready hrest
    (next_literal hindent hk hne hprintable htail.endsGap hrest ho hpending) ?_
  refine Nat.lt_of_lt_of_le (@Cursor.length_rest_pass_lt _ tail _ ?_ ?_) hlength
  · rw [hrest]
    simp
  · simp [Style.write]

/-- Any other scalar is taken alone, except that a plain one is taken with the end of its line. -/
theorem leads_inline (hready : ready? s = some r)
    (hlength : r.cursor.rest.length ≤ s.cursor.rest.length) (hindent : r.indent = n)
    (hcolumn : n < r.cursor.column) (hk : k ≤ n) (h : Suits text st) (hst : st ≠ .literal)
    (htail : Fresh tail)
    (hrest : r.cursor.rest = Style.write (n + 2) text st ++ (['\n'] ++ (spaces k ++ tail)))
    (ho : r.spots = [o]) (hpending : Pending r.cursor o) :
    ∃ o', Pending r.cursor o' ∧ Leads s { r with
      cursor := r.cursor.pass
        (Style.write (n + 2) text st ++ if st = .plain then ['\n'] ++ spaces k else [])
      tokens := r.tokens.push (.scalar (decide (st = .plain)) text)
      spots := [o']
      keyAllowed := decide (st = .plain) } := by
  obtain ⟨c, cs, hc, hnext⟩ := @next_write r (n + 2) (Nat.succ_ne_zero _) text st h hst _ _ _
    (.line (by omega) htail.endsGap) hrest (by omega) o ho (fun _ => hpending)
  obtain ⟨o', ho', hpending'⟩ := pending_withSpot ho hpending (by omega)
  rw [withSpot_eq ho', Bool.and_true] at hnext
  have hsplit : r.cursor.rest =
      (Style.write (n + 2) text st ++ if st = .plain then ['\n'] ++ spaces k else []) ++
        if st = .plain then tail else ['\n'] ++ (spaces k ++ tail) := by
    rw [hrest]
    split <;> simp
  have hne : Style.write (n + 2) text st ≠ [] := List.length_pos_iff.mp (length_write_pos h _)
  exact ⟨o', hpending', Leads.of_next hready hc hnext (Nat.lt_of_lt_of_le
    (Cursor.length_rest_pass_lt hsplit (by simp [hne])) hlength)⟩

/-- A scalar that the scanner takes next, with the end of its line. -/
theorem leads_write (hready : ready? s = some r)
    (hlength : r.cursor.rest.length ≤ s.cursor.rest.length) (hindent : r.indent = n)
    (hcolumn : n < r.cursor.column) (hk : k ≤ n) (h : Suits text st) (htail : Fresh tail)
    (hrest : r.cursor.rest = Style.write (n + 2) text st ++
      (endLine (Style.write (n + 2) text st) ++ (spaces k ++ tail)))
    (ho : r.spots = [o]) (hpending : Pending r.cursor o) :
    Leads s { r with
      cursor := r.cursor.pass (Style.write (n + 2) text st ++
        (endLine (Style.write (n + 2) text st) ++ spaces k))
      tokens := r.tokens.push (.scalar (decide (st = .plain)) text)
      spots := [none]
      keyAllowed := true } := by
  rw [endLine_write h] at hrest ⊢
  by_cases hst : st = .literal
  · subst hst
    cases h with
    | literal hne hprintable =>
      exact leads_literal hready hlength hindent hk hne hprintable htail hrest ho hpending
  · rw [if_neg hst] at hrest ⊢
    obtain ⟨o', hpending', hleads⟩ :=
      leads_inline hready hlength hindent hcolumn hk h hst htail hrest ho hpending
    refine hleads.trans ?_
    by_cases hplain : st = .plain
    · -- The scanner has taken the end of the line along with the scalar.
      subst hplain
      simp only [if_true, decide_true]
      have hsplit : r.cursor.rest =
          (Style.write (n + 2) text .plain ++ (['\n'] ++ spaces k)) ++ tail := by
        rw [hrest]
        simp
      refine leads_broken ((Cursor.rest_pass_of_eq hsplit).symm ▸ htail) rfl hpending' ?_
      have hbreaks : ['\n'].countP isBreak = 1 := rfl
      rw [Cursor.line_pass, List.countP_append, List.countP_append, hbreaks]
      omega
    · simp only [hplain, decide_false, if_false, List.append_nil]
      rw [Cursor.pass_append]
      exact leads_line htail (Cursor.rest_pass_of_eq hrest) rfl
        (hpending'.mono (Cursor.line_le_pass _ _))

end Line

/-! ## Empty collections -/

/-- The marks of a collection in which nothing stands, and their tokens. -/
inductive EmptyFlow : Char → Char → Token → Token → Prop
  | sequence : EmptyFlow '[' ']' .flowSequenceStart .flowSequenceEnd
  | mapping : EmptyFlow '\x7b' '\x7d' .flowMappingStart .flowMappingEnd

section EmptyFlow

variable {b e : Char} {t u : Token} {tail : List Char}

theorem next_openFlow {r : Scan} (hflow : EmptyFlow b e t u) (hrest : r.cursor.rest = b :: e :: tail)
    {o : Option KeySpot} (ho : r.spots = [o]) (hsave : CanSave r o) : r.next b = some { r.withSpot with
      cursor := r.cursor.pass [b]
      tokens := r.tokens.push t
      spots := none :: r.withSpot.spots
      keyAllowed := true } := by
  have hb : isBreak b = false := by cases hflow <;> decide
  have hmark : r.cursor.atDocumentMark = false := by
    cases hflow <;> exact Cursor.atDocumentMark_of_head hrest (by decide) (by decide)
  have hopen : r.next b = r.openFlow t := by
    cases hflow <;> simp [next, hmark]
  rw [hopen, openFlow, saveSpot_eq ho hsave]
  simp [allowKey, emitMark, Cursor.skip_one_eq_pass hrest hb]

theorem next_closeFlow {r : Scan} (hflow : EmptyFlow b e t u) (hrest : r.cursor.rest = e :: tail)
    {o : Option KeySpot} (ho : r.spots = [none, o]) : r.next e = some { r with
      cursor := r.cursor.pass [e]
      tokens := r.tokens.push u
      spots := [o]
      keyAllowed := false } := by
  have he : isBreak e = false := by cases hflow <;> decide
  have hmark : r.cursor.atDocumentMark = false := by
    cases hflow <;> exact Cursor.atDocumentMark_of_head hrest (by decide) (by decide)
  have hclose : r.next e = r.closeFlow u := by
    cases hflow <;> simp [next, hmark]
  rw [hclose, closeFlow]
  simp [dropSpot, inFlow, allowKey, emitMark, ho, Cursor.skip_one_eq_pass hrest he]

/-- An empty collection, after which the spot of a key is still remembered unless it was given up
inside. -/
theorem leads_emptyFlow {s r : Scan} (hready : ready? s = some r)
    (hlength : r.cursor.rest.length ≤ s.cursor.rest.length) (hflow : EmptyFlow b e t u)
    (hrest : r.cursor.rest = b :: e :: tail) {o o' : Option KeySpot} (ho : r.spots = [o])
    (hsave : CanSave r o) (hexpire : expire (r.cursor.pass [b]) r.withSpot.spots = some [o']) :
    Leads s { r with
      cursor := r.cursor.pass [b, e]
      tokens := (r.tokens.push t).push u
      spots := [o']
      keyAllowed := false } := by
  have hopen := next_openFlow hflow hrest ho hsave
  have hmid : (r.cursor.pass [b]).rest = e :: tail := Cursor.rest_pass_of_eq hrest
  have hend : (r.cursor.pass [b, e]).rest = tail := @Cursor.rest_pass_of_eq [b, e] _ _ hrest
  have hfresh : Fresh (e :: tail) := by
    cases hflow <;> exact fresh_cons.mpr (by decide)
  generalize hr' : ({ r.withSpot with
    cursor := _, tokens := _, spots := _, keyAllowed := _ } : Scan) = r' at hopen
  rw [withSpot_update] at hr'
  have hcursor : r'.cursor = r.cursor.pass [b] := by rw [← hr']
  have hready' : ready? r' = some { r' with spots := [none, o'] } := by
    have hspots : expire r'.cursor r'.spots = some [none, o'] := by
      rw [hcursor, ← hr', expire, hexpire]
      rfl
    rw [ready?_fresh (by rw [hcursor, hmid]; exact hfresh) hspots, unroll_of_inFlow rfl]
  have hrest' : r'.cursor.rest = e :: tail := hcursor ▸ hmid
  have hclose := @next_closeFlow b e t u tail { r' with spots := [none, o'] } hflow hrest' o' rfl
  have hpass : r'.cursor.pass [e] = r.cursor.pass [b, e] := by
    rw [hcursor, ← Cursor.pass_append]
    rfl
  have hopened : Leads s r' := by
    refine Leads.of_next hready hrest hopen (Nat.lt_of_lt_of_le ?_ hlength)
    rw [hrest', hrest]
    exact Nat.lt_succ_self _
  have hclosed := Leads.of_next hready' hrest' hclose (by
    show (r'.cursor.pass [e]).rest.length < r'.cursor.rest.length
    rw [hpass, hend, hrest']
    exact Nat.lt_succ_self _)
  refine hopened.trans ?_
  simp only [hpass] at hclosed
  rw [← hr'] at hclosed ⊢
  exact hclosed

end EmptyFlow

end Scan

end RouteFleet.Yaml
