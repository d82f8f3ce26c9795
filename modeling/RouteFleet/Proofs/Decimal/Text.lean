import RouteFleet.Decimal.Binary64
import RouteFleet.Proofs.Text.Digits

/-! # The text of decimals

A decimal is written as digits with a point or an exponent among them
(`Binary64.exists_decimalText`), and what is written is read as the same decimal, perhaps with a zero
more at its end (`Binary64.decimal?_decimalText`).
-/

namespace RouteFleet

open Text

namespace Binary64

/-- A fraction after the point, if there is one. -/
def pointText (fraction : List Char) : List Char :=
  if fraction = [] then [] else '.' :: fraction

/-- An exponent with its mark, if there is one. -/
def exponentText : Option Int → List Char
  | none => []
  | some e => 'e' :: (toString e).toList

/-- The text of `n * 10 ^ k` in its parts: digits, of which the first stand before the point, and an
exponent. Zeros may have been put after the digits. -/
structure IsDecimalText (n : Nat) (k : Int) (whole fraction : List Char) (exponent : Option Int) :
    Prop where
  ne_nil : whole ≠ []
  isDigit_whole : ∀ c ∈ whole, isDigit c = true
  isDigit_fraction : ∀ c ∈ fraction, isDigit c = true
  /-- A decimal is not written as a whole number is. -/
  marked : fraction ≠ [] ∨ exponent ≠ none
  value : ∃ i : Nat, digits? 10 (whole ++ fraction) = some (n * 10 ^ i) ∧
    exponent.getD 0 - fraction.length = k - i

theorem isDigit_of_mem_zeros {j : Nat} {c : Char} (h : c ∈ List.replicate j '0') :
    isDigit c = true := by
  rw [List.eq_of_mem_replicate h]
  decide

section Forms

variable {n : Nat} {k : Int}

/-- A whole number: zeros are put after the digits, and one after the point. -/
theorem isDecimalText_whole (h : 0 ≤ k) :
    IsDecimalText n k (Nat.toDigits 10 n ++ List.replicate k.toNat '0') ['0'] none := by
  refine ⟨?_, ?_, ?_, .inl (List.cons_ne_nil _ _), k.toNat + 1, ?_, ?_⟩
  · simp [Nat.toDigits_ne_nil]
  · intro c hc
    rcases List.mem_append.mp hc with hc | hc
    · exact isDigit_of_mem_toDigits hc
    · exact isDigit_of_mem_zeros hc
  · simp
    decide
  · rw [List.append_assoc, ← List.replicate_succ', digits?_toDigits_zeros]
  · simp
    omega

/-- The point stands among the digits, after the first `p`. -/
theorem isDecimalText_point {p : Nat} (hpos : 0 < p) (hlt : p < (Nat.toDigits 10 n).length)
    (hp : (p : Int) = (Nat.toDigits 10 n).length + k) :
    IsDecimalText n k ((Nat.toDigits 10 n).take p) ((Nat.toDigits 10 n).drop p) none := by
  refine ⟨?_, fun c hc => isDigit_of_mem_toDigits (List.mem_of_mem_take hc),
    fun c hc => isDigit_of_mem_toDigits (List.mem_of_mem_drop hc), .inl ?_, 0, ?_, ?_⟩
  · simp only [ne_eq, List.take_eq_nil_iff, Nat.toDigits_ne_nil, or_false]
    omega
  · simp [List.drop_eq_nil_iff, hlt]
  · rw [List.take_append_drop, digits?_toDigits]
    simp
  · simp only [Option.getD_none, List.length_drop]
    omega

/-- A small number: zeros stand between the point and the digits. -/
theorem isDecimalText_small {j : Nat} (hj : (j : Int) = -((Nat.toDigits 10 n).length + k)) :
    IsDecimalText n k ['0'] (List.replicate j '0' ++ Nat.toDigits 10 n) none := by
  refine ⟨List.cons_ne_nil _ _, ?_, ?_, .inl (by simp [Nat.toDigits_ne_nil]), 0, ?_, ?_⟩
  · simp
    decide
  · intro c hc
    rcases List.mem_append.mp hc with hc | hc
    · exact isDigit_of_mem_zeros hc
    · exact isDigit_of_mem_toDigits hc
  · rw [← List.append_assoc, List.singleton_append, ← List.replicate_succ, digits?_zeros_toDigits]
    simp
  · simp
    omega

/-- The point stands after the first digit, and an exponent after the digits. -/
theorem isDecimalText_exponent {d : Char} {more : List Char} (h : Nat.toDigits 10 n = d :: more) :
    IsDecimalText n k [d] more (some ((d :: more).length + k - 1)) := by
  have hdigit : ∀ c ∈ d :: more, isDigit c = true := fun c hc => isDigit_of_mem_toDigits (h ▸ hc)
  refine ⟨List.cons_ne_nil _ _, ?_, fun c hc => hdigit c (List.mem_cons_of_mem _ hc),
    .inr (Option.some_ne_none _), 0, ?_, ?_⟩
  · intro c hc
    obtain rfl := List.mem_singleton.mp hc
    exact hdigit c List.mem_cons_self
  · rw [List.singleton_append, ← h, digits?_toDigits]
    simp
  · simp
    omega

end Forms

theorem exists_decimalText (n : Nat) (k : Int) : ∃ whole fraction exponent,
    (writeDecimal n k).toList = whole ++ (pointText fraction ++ exponentText exponent) ∧
      IsDecimalText n k whole fraction exponent := by
  have hds : (toString n).toList = Nat.toDigits 10 n := toList_toString n
  have hne : Nat.toDigits 10 n ≠ [] := Nat.toDigits_ne_nil
  have hlength : (toString n).length = (Nat.toDigits 10 n).length := by
    rw [← hds, String.length_toList]
  rw [writeDecimal]
  simp only [hlength, hds]
  split
  · rename_i h
    rw [Bool.and_eq_true, decide_eq_true_eq, decide_eq_true_eq] at h
    refine ⟨_, _, _, ?_, isDecimalText_whole h.1⟩
    simp [zeros, pointText, exponentText]
  split
  · rename_i hwhole h
    rw [Bool.and_eq_true, decide_eq_true_eq, decide_eq_true_eq] at hwhole h
    have hlt : ((Nat.toDigits 10 n).length + k).toNat < (Nat.toDigits 10 n).length := by omega
    refine ⟨_, _, _, ?_, isDecimalText_point (by omega) hlt (by omega)⟩
    simp [pointText, exponentText, List.drop_eq_nil_iff, hlt]
  split
  · rename_i _ _ h
    rw [Bool.and_eq_true, decide_eq_true_eq, decide_eq_true_eq] at h
    refine ⟨_, _, _, ?_, isDecimalText_small (Int.toNat_of_nonneg (by omega))⟩
    simp [zeros, pointText, exponentText, hne]
  · obtain ⟨d, more, hmore⟩ := List.exists_cons_of_ne_nil hne
    refine ⟨_, _, _, ?_, isDecimalText_exponent hmore⟩
    rw [hmore]
    cases more with
    | nil => simp [pointText, exponentText]
    | cons e more => simp [pointText, exponentText]

/-! ## Reading -/

/-- The exponent that stands after the digits is read back. -/
theorem digits?_exponentText (n : Nat) (k : Int) (e : Int) :
    (match (toString e).toList with
      | '-' :: ds => (digits? 10 ds).bind fun d => some (n, k - (d : Int))
      | '+' :: ds => (digits? 10 ds).bind fun d => some (n, k + (d : Int))
      | ds => (digits? 10 ds).bind fun d => some (n, k + (d : Int))) = some (n, k + e) := by
  rcases toList_toString_int e with ⟨he, htext⟩ | ⟨he, htext⟩
  · obtain ⟨d, ds, hds, hdigit⟩ := exists_toDigits_cons e.toNat
    rw [htext, hds]
    split
    · rename_i heq
      obtain rfl := (List.cons.inj heq).1
      exact absurd hdigit (by decide)
    · rename_i heq
      obtain rfl := (List.cons.inj heq).1
      exact absurd hdigit (by decide)
    · rw [← hds, digits?_toDigits]
      simp [Int.toNat_of_nonneg he]
  · rw [htext]
    show (digits? 10 (Nat.toDigits 10 (-e).toNat)).bind (fun d => some (n, k - (d : Int))) = _
    rw [digits?_toDigits, Option.bind_some, Option.some.injEq, Prod.mk.injEq]
    exact ⟨rfl, by omega⟩

/-- The digits after a point, and what follows them. -/
def splitPoint (cs : List Char) : List Char × List Char :=
  match cs with
  | '.' :: more => (more.takeWhile isDigit, more.dropWhile isDigit)
  | _ => ([], cs)

theorem decimal?_eq (cs : List Char) : decimal? cs =
    if (cs.takeWhile isDigit).isEmpty && (splitPoint (cs.dropWhile isDigit)).1.isEmpty then none
    else (digits? 10 (cs.takeWhile isDigit ++ (splitPoint (cs.dropWhile isDigit)).1)).bind fun n =>
      match (splitPoint (cs.dropWhile isDigit)).2 with
      | [] => some (n, -((splitPoint (cs.dropWhile isDigit)).1.length : Int))
      | e :: exponent =>
        if e = 'e' || e = 'E' then
          match exponent with
          | '-' :: ds => (digits? 10 ds).bind fun d =>
            some (n, -((splitPoint (cs.dropWhile isDigit)).1.length : Int) - d)
          | '+' :: ds => (digits? 10 ds).bind fun d =>
            some (n, -((splitPoint (cs.dropWhile isDigit)).1.length : Int) + d)
          | ds => (digits? 10 ds).bind fun d =>
            some (n, -((splitPoint (cs.dropWhile isDigit)).1.length : Int) + d)
        else none := rfl

theorem head?_exponentText {exponent : Option Int} {c : Char}
    (h : c ∈ (exponentText exponent).head?) : c = 'e' := by
  cases exponent with
  | none => exact nomatch h
  | some e => exact (Option.some.inj h).symm

/-- No digit follows those before the point. -/
theorem head?_pointText {fraction : List Char} {exponent : Option Int} {c : Char}
    (h : c ∈ (pointText fraction ++ exponentText exponent).head?) : isDigit c = false := by
  rw [pointText] at h
  split at h
  · rw [head?_exponentText h]
    decide
  · obtain rfl : '.' = c := by simpa using h
    decide

theorem splitPoint_pointText {fraction : List Char} (h : ∀ c ∈ fraction, isDigit c = true)
    (exponent : Option Int) : splitPoint (pointText fraction ++ exponentText exponent) =
      (fraction, exponentText exponent) := by
  cases fraction with
  | nil => cases exponent <;> rfl
  | cons d ds =>
    obtain ⟨htake, hdrop⟩ := takeWhile_digits h fun c (hc : c ∈ (exponentText exponent).head?) => by
      rw [head?_exponentText hc]
      decide
    exact Prod.ext htake hdrop

theorem decimal?_decimalText {n : Nat} {k : Int} {whole fraction : List Char}
    {exponent : Option Int} (h : IsDecimalText n k whole fraction exponent) :
    ∃ i : Nat, decimal? (whole ++ (pointText fraction ++ exponentText exponent)) =
      some (n * 10 ^ i, k - i) := by
  obtain ⟨i, hdigits, hvalue⟩ := h.value
  refine ⟨i, ?_⟩
  obtain ⟨htake, hdrop⟩ := takeWhile_digits h.isDigit_whole fun _ hc => head?_pointText hc
  have hempty : whole.isEmpty = false := by simpa using h.ne_nil
  rw [decimal?_eq, htake, hdrop, splitPoint_pointText h.isDigit_fraction]
  simp only [hempty, Bool.false_and, Bool.false_eq_true, if_false, hdigits, Option.bind_some]
  cases exponent with
  | none =>
    have hk : -(fraction.length : Int) = k - i := by simpa using hvalue
    rw [← hk]
    rfl
  | some e =>
    have hk : -(fraction.length : Int) + e = k - i := by
      rw [← hvalue]
      simp
      omega
    rw [← hk]
    exact digits?_exponentText (n * 10 ^ i) (-(fraction.length : Int)) e

end Binary64

end RouteFleet
