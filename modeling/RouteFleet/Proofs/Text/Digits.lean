import Mathlib.Algebra.Group.Nat.Defs
import RouteFleet.Text.Split
import RouteFleet.Yaml.Style

/-! # Digits

Reading the digits that a number is written with gives the number back, in base ten
(`Text.digits?_toDigits`) and in base sixteen with a fixed number of digits
(`Text.digits?_escapeDigits`).
-/

namespace RouteFleet.Text

/-- Reads one more digit. -/
def digitStep (base : Nat) (acc : Option Nat) (c : Char) : Option Nat :=
  match acc, digitValue? c with
  | some n, some d => if d < base then some (n * base + d) else none
  | _, _ => none

theorem digits?_eq_foldl {base : Nat} {cs : List Char} (h : cs ≠ []) :
    digits? base cs = cs.foldl (digitStep base) (some 0) := by
  cases cs with
  | nil => exact absurd rfl h
  | cons c cs => rfl

theorem foldl_digitStep_none (base : Nat) (cs : List Char) :
    cs.foldl (digitStep base) none = none := by
  induction cs with
  | nil => rfl
  | cons c cs ih => exact ih

/-! ## Base ten -/

theorem digitValue?_digitChar {d : Nat} (h : d < 10) : digitValue? d.digitChar = some d := by
  have hall : ∀ k : Fin 10, digitValue? k.val.digitChar = some k.val := by decide
  exact hall ⟨d, h⟩

theorem foldl_digitStep_toDigits (n m : Nat) :
    (Nat.toDigits 10 n).foldl (digitStep 10) (some m) =
      some (m * 10 ^ (Nat.toDigits 10 n).length + n) := by
  induction n using Nat.strongRecOn generalizing m with
  | ind n ih =>
    by_cases hlt : n < 10
    · rw [Nat.toDigits_of_lt_base hlt]
      simp [digitStep, digitValue?_digitChar hlt, hlt]
    · rw [Nat.toDigits_of_base_le (by decide) (Nat.not_lt.mp hlt), List.foldl_append,
        ih (n / 10) (by omega), List.length_append]
      have hd : n % 10 < 10 := Nat.mod_lt _ (by decide)
      simp only [List.foldl_cons, List.foldl_nil, digitStep, digitValue?_digitChar hd, hd, if_true,
        List.length_cons, List.length_nil, Nat.pow_succ, Option.some.injEq]
      rw [Nat.add_mul, Nat.mul_assoc, Nat.add_assoc, Nat.div_add_mod' n 10]

theorem digits?_toDigits (n : Nat) : digits? 10 (Nat.toDigits 10 n) = some n := by
  rw [digits?_eq_foldl Nat.toDigits_ne_nil, foldl_digitStep_toDigits]
  simp

theorem mem_decimalDigits {c : Char} (h : isDigit c = true) : c ∈ "0123456789".toList := by
  simp only [isDigit, Bool.and_eq_true, decide_eq_true_eq, Char.le_def, UInt32.le_iff_toNat_le] at h
  obtain ⟨hlow, hhigh⟩ := h
  have hlow' : 48 ≤ c.toNat := hlow
  have hhigh' : c.toNat ≤ 57 := hhigh
  have hall : ∀ d : Fin 10, Char.ofNat (48 + d.val) ∈ "0123456789".toList := by decide
  have hc : c = Char.ofNat (48 + (c.toNat - 48)) := by
    rw [show 48 + (c.toNat - 48) = c.toNat by omega, Char.ofNat_toNat]
  rw [hc]
  exact hall ⟨c.toNat - 48, by omega⟩

theorem isDigit_of_mem_toDigits {n : Nat} {c : Char} (h : c ∈ Nat.toDigits 10 n) :
    isDigit c = true := by
  have hdigit := Nat.isDigit_of_mem_toDigits (by decide) (by decide) h
  simpa [isDigit, Char.isDigit, Char.le_def] using hdigit

theorem toList_toString (n : Nat) : (toString n).toList = Nat.toDigits 10 n := Nat.toList_repr

/-- A whole number is written as its digits, with a dash before them if it is negative. -/
theorem toList_toString_int (e : Int) :
    (0 ≤ e ∧ (toString e).toList = Nat.toDigits 10 e.toNat) ∨
      (e < 0 ∧ (toString e).toList = '-' :: Nat.toDigits 10 (-e).toNat) := by
  cases e with
  | ofNat m => exact .inl ⟨Int.natCast_nonneg m, toList_toString m⟩
  | negSucc m =>
    refine .inr ⟨Int.negSucc_lt_zero m, ?_⟩
    rw [show (toString (Int.negSucc m)) = "-" ++ Nat.repr (m + 1) from rfl, String.toList_append,
      Nat.toList_repr]
    rfl

/-- A digit begins what is written for a number that is not negative. -/
theorem exists_toDigits_cons (n : Nat) :
    ∃ d ds, Nat.toDigits 10 n = d :: ds ∧ isDigit d = true := by
  obtain ⟨d, ds, h⟩ := List.exists_cons_of_ne_nil (@Nat.toDigits_ne_nil n 10)
  exact ⟨d, ds, h, isDigit_of_mem_toDigits (h ▸ List.mem_cons_self)⟩

/-- Digits do not begin with a zero that could be left out. -/
theorem head?_toDigits_ne_zero {n : Nat} (h : 0 < n) : (Nat.toDigits 10 n).head? ≠ some '0' := by
  induction n using Nat.strongRecOn with
  | ind n ih =>
    by_cases hlt : n < 10
    · have hall : ∀ k : Fin 10, 0 < k.val → [k.val.digitChar].head? ≠ some '0' := by decide
      rw [Nat.toDigits_of_lt_base hlt]
      exact hall ⟨n, hlt⟩ h
    · have hle := Nat.not_lt.mp hlt
      have hdiv : 0 < n / 10 := Nat.div_pos hle (by decide)
      have hfirst := ih (n / 10) (by omega) hdiv
      obtain ⟨d, ds, hds, -⟩ := exists_toDigits_cons (n / 10)
      rw [hds] at hfirst
      rw [Nat.toDigits_of_base_le (by decide) hle, hds]
      exact hfirst

/-- Digits come apart from what begins with no digit. -/
theorem takeWhile_digits {w tail : List Char} (hw : ∀ c ∈ w, isDigit c = true)
    (htail : ∀ c ∈ tail.head?, isDigit c = false) :
    (w ++ tail).takeWhile isDigit = w ∧ (w ++ tail).dropWhile isDigit = tail := by
  rw [List.takeWhile_append_of_pos hw, List.dropWhile_append_of_pos hw]
  cases tail with
  | nil => simp
  | cons c tail => simp [htail c rfl]

/-- A character that is not a digit of the base makes the digits foreign. -/
theorem digits?_eq_none {base : Nat} {c : Char} (hc : ∀ n, digitStep base (some n) c = none)
    {cs : List Char} (h : c ∈ cs) : digits? base cs = none := by
  obtain ⟨ds, es, rfl⟩ := List.append_of_mem h
  rw [digits?_eq_foldl (by simp), List.foldl_append, List.foldl_cons]
  cases ds.foldl (digitStep base) (some 0) with
  | none => exact foldl_digitStep_none base es
  | some n => rw [hc, foldl_digitStep_none]

theorem foldl_digitStep_zeros (j m : Nat) :
    (List.replicate j '0').foldl (digitStep 10) (some m) = some (m * 10 ^ j) := by
  induction j generalizing m with
  | zero => simp
  | succ j ih =>
    have hstep : digitStep 10 (some m) '0' = some (m * 10) := rfl
    rw [List.replicate_succ, List.foldl_cons, hstep, ih, Nat.pow_succ, Nat.mul_assoc,
      Nat.mul_comm 10]

/-- Zeros after the digits of a number. -/
theorem digits?_toDigits_zeros (n j : Nat) :
    digits? 10 (Nat.toDigits 10 n ++ List.replicate j '0') = some (n * 10 ^ j) := by
  rw [digits?_eq_foldl (by simp [Nat.toDigits_ne_nil]), List.foldl_append, foldl_digitStep_toDigits,
    foldl_digitStep_zeros]
  simp

/-- Zeros before the digits of a number. -/
theorem digits?_zeros_toDigits (n j : Nat) :
    digits? 10 (List.replicate j '0' ++ Nat.toDigits 10 n) = some n := by
  rw [digits?_eq_foldl (by simp [Nat.toDigits_ne_nil]), List.foldl_append, foldl_digitStep_zeros,
    foldl_digitStep_toDigits]
  simp

/-! ## Base sixteen -/

theorem digitValue?_upper {d : Nat} (h : d < 16) : digitValue? (hexDigit d).toUpper = some d := by
  have hall : ∀ k : Fin 16, digitValue? (hexDigit k.val).toUpper = some k.val := by decide
  exact hall ⟨d, h⟩

open Yaml.Style

theorem length_hexDigits (width n : Nat) : (hexDigits width n).length = width := by
  induction width generalizing n with
  | zero => rfl
  | succ w ih => rw [hexDigits, List.length_append, ih]; rfl

@[simp] theorem length_escapeDigits (width n : Nat) : (escapeDigits width n).length = width := by
  rw [escapeDigits, List.length_map, length_hexDigits]

theorem foldl_digitStep_escapeDigits (width n : Nat) :
    (escapeDigits width n).foldl (digitStep 16) (some 0) = some (n % 16 ^ width) := by
  induction width generalizing n with
  | zero => simp [escapeDigits, hexDigits, Nat.mod_one]
  | succ w ih =>
    have hd : n % 16 < 16 := Nat.mod_lt _ (by decide)
    have hmod : n % 16 ^ (w + 1) = n / 16 % 16 ^ w * 16 + n % 16 := by
      rw [Nat.pow_succ, Nat.mul_comm (16 ^ w) 16, Nat.mod_mul, Nat.mul_comm 16, Nat.add_comm]
    rw [escapeDigits, hexDigits, List.map_append, List.foldl_append, ← escapeDigits, ih, hmod]
    simp [digitStep, digitValue?_upper hd, hd]

theorem digits?_escapeDigits {width n : Nat} (hwidth : width ≠ 0) (h : n < 16 ^ width) :
    digits? 16 (escapeDigits width n) = some n := by
  have hne : escapeDigits width n ≠ [] := by
    intro hnil
    exact hwidth (by simpa using congrArg List.length hnil)
  rw [digits?_eq_foldl hne, foldl_digitStep_escapeDigits, Nat.mod_eq_of_lt h]

theorem mem_escapeDigits {width n : Nat} {c : Char} (h : c ∈ escapeDigits width n) :
    ∃ d < 16, c = (hexDigit d).toUpper := by
  induction width generalizing n with
  | zero => simp [escapeDigits, hexDigits] at h
  | succ w ih =>
    rw [escapeDigits, hexDigits, List.map_append, List.mem_append] at h
    rcases h with h | h
    · exact ih h
    · exact ⟨n % 16, Nat.mod_lt _ (by decide), by simpa using h⟩

/-- The digits of an escape are digits or letters. -/
theorem isAlnum_of_mem_escapeDigits {width n : Nat} {c : Char} (h : c ∈ escapeDigits width n) :
    isAlnum c = true := by
  obtain ⟨d, hd, rfl⟩ := mem_escapeDigits h
  have hall : ∀ k : Fin 16, isAlnum (hexDigit k.val).toUpper = true := by decide
  exact hall ⟨d, hd⟩

end RouteFleet.Text
