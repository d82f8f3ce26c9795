import RouteFleet.Json.Token
import RouteFleet.Proofs.Text.Digits

/-! # Literals of JSON documents

What is written for a text between quotes is scanned up to the closing quote (`Json.scanString_escape`)
and spells the text (`Json.unescape?_escape`), whatever characters are in it. What is written for an
integer is scanned up to its last digit (`Json.scanNumber_ofInt`) and means the integer
(`Json.integer?_ofInt`).
-/

namespace RouteFleet.Json

open Text

/-! ## Texts -/

/-- The characters that are written as a backslash and one more character. -/
def shortlyEscaped : List Char := ['"', '\\', '\x08', '\t', '\n', '\x0c', '\r']

theorem escapeChar_short {c : Char} (h : c ∈ shortlyEscaped) :
    ∃ d ∈ ['"', '\\', 'b', 't', 'n', 'f', 'r'], escapeChar c = ['\\', d] ∧ ∀ fuel rest,
      unescapeChars (fuel + 1) ('\\' :: d :: rest) = (unescapeChars fuel rest).map (c :: ·) := by
  simp only [shortlyEscaped, List.mem_cons, List.not_mem_nil, or_false] at h
  rcases h with rfl | rfl | rfl | rfl | rfl | rfl | rfl <;>
    refine ⟨_, ?_, rfl, fun _ _ => rfl⟩ <;> decide

/-- Of the other characters, control characters are written as four digits and all others stand for
themselves. -/
theorem escapeChar_eq {c : Char} (h : c ∉ shortlyEscaped) : escapeChar c =
    if c.toNat < 0x20 then '\\' :: 'u' :: hexDigits 4 c.toNat else [c] := by
  simp only [shortlyEscaped, List.mem_cons, List.not_mem_nil, or_false, not_or] at h
  obtain ⟨hquote, hback, hb, ht, hn, hf, hr⟩ := h
  rw [escapeChar, if_neg hquote, if_neg hback, if_neg hb, if_neg ht, if_neg hn, if_neg hf, if_neg hr]

/-- Four digits are written for a control character, and spell it. -/
theorem exists_hexDigits {n : Nat} (h : n < 0x20) : ∃ a b c d, hexDigits 4 n = [a, b, c, d] ∧
    [a, b, c, d].all isHexDigit = true ∧ digits? 16 [a, b, c, d] = some n := by
  have hall : ∀ k : Fin 0x20, (hexDigits 4 k.val).all isHexDigit = true ∧
      digits? 16 (hexDigits 4 k.val) = some k.val := by decide
  obtain ⟨hhex, hvalue⟩ := hall ⟨n, h⟩
  exact ⟨_, _, _, _, rfl, hhex, hvalue⟩

theorem unescapeChars_escapeChar (fuel : Nat) (c : Char) (rest : List Char) :
    unescapeChars (fuel + 1) (escapeChar c ++ rest) = (unescapeChars fuel rest).map (c :: ·) := by
  by_cases hshort : c ∈ shortlyEscaped
  · obtain ⟨d, -, hwritten, hread⟩ := escapeChar_short hshort
    rw [hwritten]
    exact hread fuel rest
  rw [escapeChar_eq hshort]
  split
  · rename_i hcontrol
    obtain ⟨x, y, z, w, hdigits, -, hvalue⟩ := exists_hexDigits hcontrol
    have hhigh : (decide (0xd800 ≤ c.toNat) && decide (c.toNat ≤ 0xdbff)) = false := by simp; omega
    have hlow : (decide (0xdc00 ≤ c.toNat) && decide (c.toNat ≤ 0xdfff)) = false := by simp; omega
    rw [hdigits]
    simp only [List.cons_append, List.nil_append, unescapeChars, fourDigits, hvalue, Option.map_some,
      Option.bind_eq_bind, Option.bind_some, hhigh, hlow, Char.ofNat_toNat]
    rw [if_neg Bool.false_ne_true, if_neg Bool.false_ne_true]
    cases unescapeChars fuel rest <;> rfl
  · have hback : c ≠ '\\' := by
      rintro rfl
      exact hshort (by decide)
    rw [List.singleton_append, unescapeChars]
    exact hback

theorem length_le_length_escape (cs : List Char) : cs.length ≤ (cs.flatMap escapeChar).length := by
  induction cs with
  | nil => exact Nat.le_refl _
  | cons c cs ih =>
    have hpos : 0 < (escapeChar c).length := by
      by_cases hshort : c ∈ shortlyEscaped
      · obtain ⟨d, -, hwritten, -⟩ := escapeChar_short hshort
        rw [hwritten]
        exact Nat.zero_lt_two
      · rw [escapeChar_eq hshort]
        split <;> exact Nat.zero_lt_succ _
    rw [List.flatMap_cons, List.length_append, List.length_cons]
    omega

theorem unescapeChars_escape {cs : List Char} {fuel : Nat} (h : cs.length ≤ fuel) :
    unescapeChars fuel (cs.flatMap escapeChar) = some cs := by
  induction cs generalizing fuel with
  | nil => cases fuel <;> rfl
  | cons c cs ih =>
    obtain ⟨fuel, rfl⟩ := Nat.exists_eq_add_of_lt h
    rw [List.flatMap_cons, unescapeChars_escapeChar, ih (by omega)]
    rfl

/-- A text is spelled by what is written for it. -/
@[simp] theorem unescape?_escape (s : String) : unescape? (escape s) = some s := by
  rw [unescape?, escape, String.toList_ofList, unescapeChars_escape (length_le_length_escape _),
    Option.map_some, String.ofList_toList]

namespace Token

theorem scanString_escapeChar (c : Char) (rest : List Char) : scanString (escapeChar c ++ rest) =
    (scanString rest).map fun p => (escapeChar c ++ p.1, p.2) := by
  by_cases hshort : c ∈ shortlyEscaped
  · obtain ⟨d, hd, hwritten, -⟩ := escapeChar_short hshort
    have hmarks : (['"', '\\', 'b', 't', 'n', 'f', 'r'].all fun d =>
        d ≠ 'u' && ['"', '\\', '/', 'b', 'f', 'n', 'r', 't'].contains d) = true := by decide
    obtain ⟨hu, hknown⟩ := Bool.and_eq_true_iff.mp (List.all_eq_true.mp hmarks d hd)
    rw [decide_eq_true_eq] at hu
    rw [hwritten, List.cons_append, List.singleton_append, scanString, if_pos hknown]
    · rfl
    · intro a b e f more heq
      exact absurd heq hu
  rw [escapeChar_eq hshort]
  split
  · rename_i hcontrol
    obtain ⟨x, y, z, w, hdigits, hhex, -⟩ := exists_hexDigits hcontrol
    rw [hdigits]
    exact if_pos hhex
  · rename_i hcontrol
    have hne : ∀ d ∈ shortlyEscaped, c ≠ d := fun d hd heq => hshort (heq ▸ hd)
    have hplain : (decide (c.toNat < 0x20) || decide (c = '\\')) = false := by
      simp [hcontrol, hne '\\' (by decide)]
    rw [List.singleton_append, scanString, hplain]
    · rfl
    · exact hne '"' (by decide)
    · intro a b e f more heq
      exact absurd heq (hne '\\' (by decide))
    · intro d more heq
      exact absurd heq (hne '\\' (by decide))

/-- What is written for a text is scanned up to the closing quote. -/
theorem scanString_escape (cs rest : List Char) :
    scanString (cs.flatMap escapeChar ++ '"' :: rest) = some (cs.flatMap escapeChar, rest) := by
  induction cs with
  | nil => rfl
  | cons c cs ih =>
    rw [List.flatMap_cons, List.append_assoc, scanString_escapeChar, ih]
    rfl

/-! ## Integers -/

/-- Whether a number ends before a text. -/
def EndsNumber (rest : List Char) : Prop :=
  ∀ c ∈ rest.head?, isDigit c = false ∧ c ≠ '.' ∧ c ≠ 'e' ∧ c ≠ 'E'

section Numbers

variable {rest : List Char}

/-- The digits of a number do not begin with a zero unless it is all of them. -/
theorem scanWhole_toDigits (h : EndsNumber rest) (n : Nat) :
    scanWhole (Nat.toDigits 10 n ++ rest) = some (Nat.toDigits 10 n, rest) := by
  rcases Nat.eq_zero_or_pos n with rfl | hpos
  · rfl
  · obtain ⟨d, ds, hdigits, -⟩ := exists_toDigits_cons n
    have hzero : d ≠ '0' := by
      rintro rfl
      exact head?_toDigits_ne_zero hpos (hdigits ▸ rfl)
    obtain ⟨htake, hdrop⟩ := takeWhile_digits (w := Nat.toDigits 10 n)
      (fun c hc => isDigit_of_mem_toDigits hc) (fun c hc => (h c hc).1)
    have hscan : scanDigits (Nat.toDigits 10 n ++ rest) = some (Nat.toDigits 10 n, rest) := by
      rw [scanDigits, htake, hdrop, hdigits]
    rw [hdigits, List.cons_append] at hscan ⊢
    rw [scanWhole]
    · exact hscan
    · intro more heq
      exact hzero (List.cons.inj heq).1

theorem scanFraction_of_ends (h : EndsNumber rest) : scanFraction rest = some ([], rest) := by
  cases rest with
  | nil => rfl
  | cons c rest =>
    rw [scanFraction]
    intro more heq
    exact (h c rfl).2.1 (List.cons.inj heq).1

theorem scanExponent_of_ends (h : EndsNumber rest) : scanExponent rest = some ([], rest) := by
  cases rest with
  | nil => rfl
  | cons c rest =>
    obtain ⟨-, -, he, hE⟩ := h c rfl
    have hmark : ¬ (decide (c = 'e') || decide (c = 'E')) = true := by simp [he, hE]
    exact if_neg hmark

/-- Digits do not begin with a dash. -/
theorem toDigits_ne_dash (n : Nat) (more : List Char) : Nat.toDigits 10 n ++ rest ≠ '-' :: more := by
  obtain ⟨d, ds, hdigits, hdigit⟩ := exists_toDigits_cons n
  intro heq
  rw [hdigits, List.cons_append] at heq
  obtain rfl := (List.cons.inj heq).1
  exact absurd hdigit (by decide)

/-- What is written for an integer is scanned up to its last digit. -/
theorem scanNumber_ofInt (h : EndsNumber rest) (n : Int) :
    scanNumber ((toString n).toList ++ rest) = some ((toString n).toList, rest) := by
  rcases toList_toString_int n with ⟨-, hwritten⟩ | ⟨-, hwritten⟩
  · rw [hwritten, scanNumber]
    · simp [scanWhole_toDigits h, scanFraction_of_ends h, scanExponent_of_ends h]
    · exact fun more heq => toDigits_ne_dash _ more heq
  · rw [hwritten, List.cons_append, scanNumber]
    simp [scanWhole_toDigits h, scanFraction_of_ends h, scanExponent_of_ends h]

end Numbers

end Token

/-- What is written for an integer means it. -/
@[simp] theorem integer?_ofInt (n : Int) : (ofInt n).integer? = some n := by
  rcases toList_toString_int n with ⟨hn, hwritten⟩ | ⟨hn, hwritten⟩
  · have hdash : ∀ more, Nat.toDigits 10 n.toNat ≠ '-' :: more := fun more => by
      simpa using @Token.toDigits_ne_dash [] n.toNat more
    rw [ofInt, integer?, hwritten]
    split
    · rename_i heq
      exact absurd heq (hdash _)
    · rw [digits?_toDigits, Option.map_some, Int.ofNat_eq_natCast, Int.toNat_of_nonneg hn]
  · rw [ofInt, integer?, hwritten]
    simp only [digits?_toDigits]
    split
    · rename_i heq
      have := Option.some.inj heq
      omega
    · rename_i heq
      rw [← Option.some.inj heq]
      congr 1
      omega
    · rename_i heq
      cases heq

end RouteFleet.Json
