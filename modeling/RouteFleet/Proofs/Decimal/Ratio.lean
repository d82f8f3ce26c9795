import Mathlib.Algebra.Order.Floor.Semifield
import Mathlib.Data.Rat.Floor
import Mathlib.Tactic.FieldSimp
import Mathlib.Tactic.Linarith
import Mathlib.Tactic.Positivity
import RouteFleet.Decimal.Binary64

/-! # The ratios behind numbers of double precision

A ratio has a value, on which alone the operations depend: scaling and shifting multiply it by a power
(`Ratio.value_scaled`, `Ratio.value_shift`), rounding is off by a half at most
(`Ratio.abs_value_sub_round_le`), and the logarithm is the exponent of the power of two below it
(`Ratio.log2_spec`).
-/

namespace RouteFleet.Binary64

namespace Ratio

/-- The number that a ratio is. -/
def value (r : Ratio) : ℚ := r.num / r.den

theorem value_scaled (n b : Nat) (k : Int) :
    (scaled n b k).value = n * (b : ℚ) ^ k := by
  rw [scaled]
  split
  · rename_i hk
    obtain ⟨j, rfl⟩ := Int.eq_ofNat_of_zero_le hk
    simp [value]
  · rename_i hk
    obtain ⟨j, rfl⟩ : ∃ j : Nat, k = -j := ⟨(-k).toNat, by omega⟩
    simp [value, div_eq_mul_inv]

theorem den_scaled_pos (n : Nat) {b : Nat} (hb : b ≠ 0) (k : Int) : 0 < (scaled n b k).den := by
  rw [scaled]
  split
  · exact Nat.one_pos
  · exact Nat.pow_pos (Nat.pos_of_ne_zero hb)

theorem value_shift (r : Ratio) (q : Int) : (r.shift q).value = r.value / 2 ^ q := by
  rw [shift]
  split
  · rename_i hq
    obtain ⟨j, rfl⟩ := Int.eq_ofNat_of_zero_le hq
    simp [value, div_div]
  · rename_i hq
    obtain ⟨j, rfl⟩ : ∃ j : Nat, q = -j := ⟨(-q).toNat, by omega⟩
    simp [value, div_eq_mul_inv, mul_right_comm]

theorem den_shift_pos {r : Ratio} (h : 0 < r.den) (q : Int) : 0 < (r.shift q).den := by
  rw [shift]
  split
  · exact Nat.mul_pos h (Nat.pow_pos Nat.two_pos)
  · exact h

/-! ## Rounding -/

/-- The whole number nearest to a rational one; halfway, the even one. -/
def nearest (x : ℚ) : Nat :=
  let n := ⌊x⌋₊
  let rest := 2 * (x - n)
  if rest < 1 then n else if 1 < rest then n + 1 else if n % 2 = 0 then n else n + 1

theorem round_eq_nearest {r : Ratio} (h : 0 < r.den) : r.round = nearest r.value := by
  have hfloor : ⌊r.value⌋₊ = r.num / r.den := Nat.floor_div_eq_div r.num r.den
  have hden : (0 : ℚ) < r.den := Nat.cast_pos.mpr h
  have hmod : (r.num : ℚ) = r.den * (r.num / r.den : Nat) + (r.num % r.den : Nat) := by
    exact_mod_cast (Nat.div_add_mod r.num r.den).symm
  have hrest : 2 * (r.value - (r.num / r.den : Nat)) = (2 * (r.num % r.den) : Nat) / r.den := by
    rw [eq_div_iff hden.ne', value, hmod]
    push_cast
    field_simp
    ring
  rw [round, nearest, hfloor, hrest]
  simp only [div_lt_one hden, one_lt_div hden, Nat.cast_lt]

theorem abs_sub_nearest_le {x : ℚ} (h : 0 ≤ x) : |x - nearest x| ≤ 1 / 2 := by
  have hlow := Nat.floor_le h
  have hhigh := Nat.lt_floor_add_one x
  rw [nearest, abs_le]
  split
  · constructor <;> linarith
  split
  · push_cast
    constructor <;> linarith
  split
  · constructor <;> linarith
  · push_cast
    constructor <;> linarith

theorem nearest_eq {x : ℚ} (hx : 0 ≤ x) {n : Nat} (h : |x - n| < 1 / 2) : nearest x = n := by
  have hnear := abs_sub_nearest_le hx
  rw [abs_le] at hnear
  rw [abs_lt] at h
  have hlt : ((nearest x : Nat) : ℚ) < n + 1 := by linarith
  have hgt : (n : ℚ) < (nearest x : Nat) + 1 := by linarith
  have hlt' : nearest x < n + 1 := by exact_mod_cast hlt
  have hgt' : n < nearest x + 1 := by exact_mod_cast hgt
  omega

/-! ## Powers of two -/

/-- Whether `e` is the exponent of the greatest power of two not above a number. -/
def IsLog2 (x : ℚ) (e : Int) : Prop := (2 : ℚ) ^ e ≤ x ∧ x < 2 ^ (e + 1)

theorem IsLog2.unique {x : ℚ} {e e' : Int} (h : IsLog2 x e) (h' : IsLog2 x e') : e = e' := by
  have hlt : e < e' + 1 := (zpow_lt_zpow_iff_right₀ (by norm_num : (1 : ℚ) < 2)).mp
    (lt_of_le_of_lt h.1 h'.2)
  have hlt' : e' < e + 1 := (zpow_lt_zpow_iff_right₀ (by norm_num : (1 : ℚ) < 2)).mp
    (lt_of_le_of_lt h'.1 h.2)
  omega

theorem isLog2_log2 {r : Ratio} (hnum : 0 < r.num) (hden : 0 < r.den) :
    IsLog2 r.value r.log2 := by
  have hbounds : ∀ n : Nat, 0 < n → (2 : ℚ) ^ (n.log2 : Int) ≤ n ∧ (n : ℚ) < 2 ^ ((n.log2 : Int) + 1) := by
    intro n hn
    refine ⟨?_, ?_⟩
    · exact_mod_cast Nat.log2_self_le hn.ne'
    · exact_mod_cast Nat.lt_log2_self
  obtain ⟨hnumLow, hnumHigh⟩ := hbounds r.num hnum
  obtain ⟨hdenLow, hdenHigh⟩ := hbounds r.den hden
  have hdenPos : (0 : ℚ) < r.den := Nat.cast_pos.mpr hden
  have hpow : ∀ e : Int, (0 : ℚ) < 2 ^ e := fun e => zpow_pos two_pos e
  generalize hn : (r.num.log2 : Int) = a at hnumLow hnumHigh
  generalize hd : (r.den.log2 : Int) = b at hdenLow hdenHigh
  have hlow : (2 : ℚ) ^ (a - b - 1) < r.value := by
    rw [value, lt_div_iff₀ hdenPos]
    calc (2 : ℚ) ^ (a - b - 1) * r.den < 2 ^ (a - b - 1) * 2 ^ (b + 1) :=
          mul_lt_mul_of_pos_left hdenHigh (hpow _)
      _ = 2 ^ a := by rw [← zpow_add₀ two_ne_zero]; congr 1; ring
      _ ≤ r.num := hnumLow
  have hhigh : r.value < (2 : ℚ) ^ (a - b + 1) := by
    rw [value, div_lt_iff₀ hdenPos]
    calc (r.num : ℚ) < 2 ^ (a + 1) := hnumHigh
      _ = 2 ^ (a - b + 1) * 2 ^ b := by rw [← zpow_add₀ two_ne_zero]; congr 1; ring
      _ ≤ 2 ^ (a - b + 1) * r.den := mul_le_mul_of_nonneg_left hdenLow (hpow _).le
  have hshift : (r.shift (a - b)).num < (r.shift (a - b)).den ↔ r.value < 2 ^ (a - b) := by
    have hpos : (0 : ℚ) < (r.shift (a - b)).den := Nat.cast_pos.mpr (den_shift_pos hden _)
    rw [← @div_lt_one ℚ _ _ _ _ _ (hpow (a - b)), ← value_shift, value, div_lt_one hpos, Nat.cast_lt]
  rw [log2, hn, hd]
  split
  · rename_i h
    exact ⟨hlow.le, by simpa using hshift.mp h⟩
  · rename_i h
    exact ⟨not_lt.mp (mt hshift.mpr h), hhigh⟩

end Ratio

end RouteFleet.Binary64
