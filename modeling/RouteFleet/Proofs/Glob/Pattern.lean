import RouteFleet.Glob.Pattern
import RouteFleet.Proofs.Text.Split

/-! # Patterns of one text

The pattern that a text is escaped to is read character by character into tokens that stand for just
these characters (`Glob.ofChars?_escape`), so it stands for that text and for no other
(`Glob.accepts_exact_iff`). Escaping goes piece by piece: a slash stays where it is, and no other comes
(`Glob.pieces_escape`). A star before a text stands for whatever ends with it (`Glob.accepts_ending_iff`).
-/

namespace RouteFleet.Glob

open Text

/-- The token that stands for one character only. -/
def Token.exactly (c : Char) : Token :=
  if c = '?' || c = '*' || c = '[' || c = ']' then .within [(c, c)] else .char c

/-- The tokens that stand for one text only. -/
def exact (cs : List Char) : List Token := cs.map Token.exactly

/-- A character is escaped in brackets, or stands for itself; it is read back as what stands for it. -/
theorem escapeChar_cases (c : Char) :
    (escapeChar c = ['[', c, ']'] ∧ c ≠ '!' ∧ Token.exactly c = .within [(c, c)]) ∨
      (escapeChar c = [c] ∧ c ≠ '?' ∧ c ≠ '*' ∧ c ≠ '[' ∧ Token.exactly c = .char c) := by
  rw [escapeChar, Token.exactly]
  split
  · rename_i hspecial
    refine .inl ⟨rfl, ?_, rfl⟩
    rintro rfl
    exact absurd hspecial (by decide)
  · rename_i hplain
    simp only [Bool.or_eq_true, decide_eq_true_eq, not_or] at hplain
    exact .inr ⟨rfl, hplain.1.1.1, hplain.1.1.2, hplain.1.2, rfl⟩

/-! ## Matching -/

@[simp] theorem accepts_exactly (c d : Char) : (Token.exactly c).accepts d = true ↔ d = c := by
  rcases escapeChar_cases c with ⟨-, -, htoken⟩ | ⟨-, -, -, -, htoken⟩
  · rw [htoken]
    simp only [Token.accepts, inRanges, List.any_cons, List.any_nil, Bool.or_false, Bool.and_eq_true,
      decide_eq_true_eq]
    constructor
    · exact fun h => Char.le_antisymm h.2 h.1
    · rintro rfl
      exact ⟨Char.le_refl d, Char.le_refl d⟩
  · rw [htoken]
    exact decide_eq_true_iff

theorem accepts_exactly_cons (c : Char) (tokens : List Token) (cs : List Char) :
    accepts (Token.exactly c :: tokens) cs = true ↔
      ∃ more, cs = c :: more ∧ accepts tokens more = true := by
  cases cs with
  | nil =>
    have hnil : accepts (Token.exactly c :: tokens) [] = false := by
      rcases escapeChar_cases c with ⟨-, -, htoken⟩ | ⟨-, -, -, -, htoken⟩ <;> rw [htoken] <;> rfl
    simp [hnil]
  | cons d more =>
    have hcons : accepts (Token.exactly c :: tokens) (d :: more) =
        ((Token.exactly c).accepts d && accepts tokens more) := by
      rcases escapeChar_cases c with ⟨-, -, htoken⟩ | ⟨-, -, -, -, htoken⟩ <;> rw [htoken] <;> rfl
    rw [hcons, Bool.and_eq_true, accepts_exactly]
    constructor
    · rintro ⟨rfl, h⟩
      exact ⟨more, rfl, h⟩
    · rintro ⟨more', heq, h⟩
      obtain ⟨rfl, rfl⟩ := List.cons.inj heq
      exact ⟨rfl, h⟩

/-- The tokens of a text stand for it and for no other. -/
theorem accepts_exact_iff {cs ds : List Char} : accepts (exact cs) ds = true ↔ ds = cs := by
  induction cs generalizing ds with
  | nil => exact List.isEmpty_iff
  | cons c cs ih =>
    rw [exact, List.map_cons, accepts_exactly_cons]
    constructor
    · rintro ⟨more, rfl, h⟩
      rw [ih.mp h]
    · rintro rfl
      exact ⟨cs, rfl, ih.mpr rfl⟩

theorem someEnd_iff {p : List Char → Bool} {cs : List Char} :
    someEnd p cs = true ↔ ∃ rest, rest <:+ cs ∧ p rest = true := by
  induction cs with
  | nil =>
    rw [someEnd]
    constructor
    · exact fun h => ⟨[], List.suffix_refl [], h⟩
    · rintro ⟨rest, hrest, h⟩
      rwa [← List.suffix_nil.mp hrest]
  | cons c cs ih =>
    rw [someEnd, Bool.or_eq_true, ih]
    constructor
    · rintro (h | ⟨rest, hrest, h⟩)
      · exact ⟨c :: cs, List.suffix_refl _, h⟩
      · exact ⟨rest, hrest.trans (List.suffix_cons c cs), h⟩
    · rintro ⟨rest, hrest, h⟩
      rcases List.suffix_cons_iff.mp hrest with rfl | hrest
      · exact .inl h
      · exact .inr ⟨rest, hrest, h⟩

/-- A star before a text stands for whatever ends with the text. -/
theorem accepts_ending_iff {cs ds : List Char} :
    accepts (.many :: exact cs) ds = true ↔ cs <:+ ds := by
  rw [accepts, someEnd_iff]
  constructor
  · rintro ⟨rest, hrest, h⟩
    rwa [← accepts_exact_iff.mp h]
  · exact fun h => ⟨cs, h, accepts_exact_iff.mpr rfl⟩

/-- Tokens of one text that are all characters spell it; where one is not, the text is of more than
dots. -/
theorem literal?_exact (cs : List Char) : literal? (exact cs) = some cs ∨
    (literal? (exact cs) = none ∧ cs ≠ [] ∧ cs ≠ ['.'] ∧ cs ≠ ['.', '.']) := by
  induction cs with
  | nil => exact .inl rfl
  | cons c cs ih =>
    rcases escapeChar_cases c with ⟨-, -, htoken⟩ | ⟨-, -, -, -, htoken⟩
    · refine .inr ⟨?_, List.cons_ne_nil c cs, ?_, ?_⟩
      · rw [exact, List.map_cons, htoken]
        rfl
      all_goals
        rintro ⟨⟩
        exact absurd htoken (by decide)
    · have hstep : literal? (exact (c :: cs)) = (literal? (exact cs)).map (c :: ·) := by
        rw [exact, List.map_cons, htoken]
        rfl
      rw [hstep]
      rcases ih with hliteral | ⟨hnone, hne, hdot, -⟩
      · exact .inl (by rw [hliteral]; rfl)
      · refine .inr ⟨by rw [hnone]; rfl, List.cons_ne_nil c cs, ?_, ?_⟩
        · exact fun h => hne (List.cons.inj h).2
        · exact fun h => hdot (List.cons.inj h).2

/-! ## Reading back -/

/-- An escaped text is read as the tokens that stand for it only. -/
theorem tokensOf?_escape {cs : List Char} {fuel : Nat} (h : (cs.flatMap escapeChar).length < fuel) :
    tokensOf? fuel (cs.flatMap escapeChar) = some (exact cs) := by
  induction cs generalizing fuel with
  | nil =>
    obtain ⟨fuel, rfl⟩ := Nat.exists_eq_add_one_of_ne_zero (Nat.ne_of_gt h)
    rfl
  | cons c cs ih =>
    obtain ⟨fuel, rfl⟩ := Nat.exists_eq_add_one_of_ne_zero (Nat.ne_of_gt (Nat.zero_lt_of_lt h))
    rw [List.flatMap_cons, List.length_append] at h
    rcases escapeChar_cases c with ⟨hescape, hbang, htoken⟩ | ⟨hescape, hquery, hstar, hopen, htoken⟩
    · rw [hescape, List.length_cons] at h
      have hrest := ih (show (cs.flatMap escapeChar).length < fuel by omega)
      have hbracket : bracket? (c :: ']' :: cs.flatMap escapeChar) =
          some ([c], cs.flatMap escapeChar) := by
        rw [bracket?, cutFirst_cons, if_pos rfl]
        rfl
      rw [List.flatMap_cons, hescape, exact, List.map_cons, htoken]
      simp [tokensOf?, hbang, hbracket, hrest, rangesOf, exact]
    · rw [hescape, List.length_singleton] at h
      have hrest := ih (show (cs.flatMap escapeChar).length < fuel by omega)
      rw [List.flatMap_cons, hescape, exact, List.map_cons, htoken]
      simp [tokensOf?, hstar, hopen, hrest, exact]

/-- A part that is an escaped text stands for that text. -/
theorem ofChars?_escape (cs : List Char) :
    Part.ofChars? (cs.flatMap escapeChar) = some (.name (exact cs)) := by
  have hnot : cs.flatMap escapeChar ≠ ['*', '*'] := by
    cases cs with
    | nil => exact List.cons_ne_nil _ _ ∘ Eq.symm
    | cons c cs =>
      rw [List.flatMap_cons]
      rcases escapeChar_cases c with ⟨hescape, -, -⟩ | ⟨hescape, -, hstar, -, -⟩
      · rw [hescape]
        exact fun h => absurd (List.cons.inj h).1 (by decide)
      · rw [hescape]
        exact fun h => hstar (List.cons.inj h).1
  rw [Part.ofChars?, if_neg hnot, tokensOf?_escape (Nat.lt_succ_self _)]
  rfl

theorem slash_mem_escapeChar {c : Char} : '/' ∈ escapeChar c ↔ c = '/' := by
  rcases escapeChar_cases c with ⟨hescape, -, -⟩ | ⟨hescape, -, -, -, -⟩
  · rw [hescape]
    simp [eq_comm]
  · rw [hescape]
    simp [eq_comm]

/-- A text is escaped piece by piece. -/
theorem pieces_escape (cs : List Char) :
    pieces '/' (cs.flatMap escapeChar) = (pieces '/' cs).map (·.flatMap escapeChar) := by
  induction cs with
  | nil => rfl
  | cons c cs ih =>
    rw [List.flatMap_cons, pieces_cons]
    by_cases hc : c = '/'
    · rw [if_pos hc, hc]
      exact congrArg ([] :: ·) ih
    · obtain ⟨p, ps, hpieces⟩ := List.exists_cons_of_ne_nil (pieces_ne_nil '/' cs)
      have hslash : '/' ∉ escapeChar c := fun h => hc (slash_mem_escapeChar.mp h)
      rw [if_neg hc, hpieces]
      rw [hpieces, List.map_cons] at ih
      rw [pieces_append_of_notMem hslash ih, List.map_cons, List.flatMap_cons]

theorem getLast?_escape {cs : List Char} :
    (cs.flatMap escapeChar).getLast? = some '/' ↔ cs.getLast? = some '/' := by
  rcases List.eq_nil_or_concat cs with rfl | ⟨lead, c, rfl⟩
  · exact Iff.rfl
  · rw [List.concat_eq_append, List.flatMap_append, List.flatMap_singleton, List.getLast?_concat]
    rcases escapeChar_cases c with ⟨hescape, -, htoken⟩ | ⟨hescape, -⟩
    · have hslash : c ≠ '/' := by
        rintro rfl
        exact absurd htoken (by decide)
      rw [hescape]
      simp [hslash]
    · rw [hescape, List.getLast?_concat]

/-! ## Parts -/

/-- The part that stands for one name only. -/
def partOf (name : String) : Part := .name (exact name.toList)

/-- A pattern of one part under an escaped text is read as the parts that stand for the text's pieces, and
that part. -/
theorem parts?_escape {cs pattern : List Char} {part : Part} (hne : pattern ≠ []) (hslash : '/' ∉ pattern)
    (hpart : Part.ofChars? pattern = some part) :
    parts? (cs.flatMap escapeChar ++ '/' :: pattern) =
      some (((pieces '/' cs).map String.ofList).map partOf ++ [part]) := by
  have hpieces : piecesOf (cs.flatMap escapeChar ++ '/' :: pattern) =
      (pieces '/' cs).map (·.flatMap escapeChar) ++ [pattern] := by
    rw [piecesOf, pieces_append_cons, pieces_escape, pieces_of_notMem hslash, List.getLast?_concat,
      if_neg (by simpa using fun _ => hne)]
  have hread : (fun cs => Part.ofChars? (cs.flatMap escapeChar)) =
      fun cs => some (partOf (String.ofList cs)) := by
    funext cs
    rw [ofChars?_escape, partOf, String.toList_ofList]
  have hlast : [pattern].mapM Part.ofChars? = some [part] := by
    rw [List.mapM_cons, hpart]
    rfl
  rw [parts?, hpieces, List.mapM_append, List.mapM_map, hlast]
  show (((pieces '/' cs).mapM fun cs => Part.ofChars? (cs.flatMap escapeChar)).bind fun parts =>
    some (parts ++ [part])) = _
  rw [hread, List.map_map]
  exact congrArg (Option.bind · _) List.mapM_pure

end RouteFleet.Glob
