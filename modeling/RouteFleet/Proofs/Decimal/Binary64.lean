import RouteFleet.Proofs.Decimal.Ratio

/-! # Reading decimals as numbers of double precision

What a decimal is read as depends on its value only (`ofDecimal_mul_pow`) and is given canonically
(`isCanonical_ofDecimal`). A decimal nearer to a canonical number than to any other is read as that
number (`ofDecimal_eq_finite`).
-/

namespace RouteFleet.Binary64

open Ratio

/-- Whether a number is given with as large a mantissa as there is room for. -/
def IsCanonical : Binary64 → Prop
  | .finite _ m q => m < 2 ^ 53 ∧ -1074 ≤ q ∧ q ≤ 971 ∧ (2 ^ 52 ≤ m ∨ q = -1074)
  | _ => True

/-! ## Of ratios -/

theorem log2_eq_of_value_eq {r s : Ratio} (hr : 0 < r.num ∧ 0 < r.den) (hs : 0 < s.num ∧ 0 < s.den)
    (h : r.value = s.value) : r.log2 = s.log2 :=
  (isLog2_log2 hr.1 hr.2).unique (h ▸ isLog2_log2 hs.1 hs.2)

theorem ofRatio_eq_of_value_eq {r s : Ratio} (hr : 0 < r.num ∧ 0 < r.den)
    (hs : 0 < s.num ∧ 0 < s.den) (h : r.value = s.value) (negative : Bool) :
    ofRatio negative r = ofRatio negative s := by
  have hlog := log2_eq_of_value_eq hr hs h
  have hround : ∀ q, (r.shift q).round = (s.shift q).round := by
    intro q
    rw [round_eq_nearest (den_shift_pos hr.2 q), round_eq_nearest (den_shift_pos hs.2 q), value_shift,
      value_shift, h]
  simp only [ofRatio, hlog, hround]

/-- The exponent with which a ratio is read, before its mantissa is rounded. -/
def ratioExponent (r : Ratio) : Int := max (r.log2 - 52) (-1074)

/-- The mantissa with which a ratio is read. -/
def ratioMantissa (r : Ratio) : Nat := nearest (r.value / 2 ^ ratioExponent r)

/-- A mantissa that was rounded up to the next power of two is halved. -/
theorem ofRatio_eq {r : Ratio} (hr : 0 < r.num ∧ 0 < r.den) (negative : Bool) : ofRatio negative r =
    if ratioMantissa r = 2 ^ 53 then
      if 971 < ratioExponent r + 1 then .infinite negative
      else .finite negative (2 ^ 52) (ratioExponent r + 1)
    else if 971 < ratioExponent r then .infinite negative
    else .finite negative (ratioMantissa r) (ratioExponent r) := by
  have hround : (r.shift (max (r.log2 - 52) (-1074))).round = ratioMantissa r := by
    rw [round_eq_nearest (den_shift_pos hr.2 _), value_shift]
    rfl
  rw [ofRatio, hround]
  by_cases h : ratioMantissa r = 2 ^ 53
  · rw [if_pos h]
    simp only [h]
    rfl
  · rw [if_neg h]
    simp only [show ratioMantissa r ≠ Nat.pow 2 53 from h, if_false]
    rfl

theorem two_zpow_pos (e : Int) : (0 : ℚ) < 2 ^ e := zpow_pos two_pos e

theorem two_zpow_add (n : Nat) (q : Int) : (2 : ℚ) ^ ((n : Int) + q) = 2 ^ n * 2 ^ q := by
  rw [zpow_add₀ two_ne_zero, zpow_natCast]

theorem value_nonneg (r : Ratio) : 0 ≤ r.value := div_nonneg (Nat.cast_nonneg _) (Nat.cast_nonneg _)

theorem ratioMantissa_le {r : Ratio} (hr : 0 < r.num ∧ 0 < r.den) : ratioMantissa r ≤ 2 ^ 53 := by
  have hlt : r.value / 2 ^ ratioExponent r < 2 ^ 53 := by
    rw [div_lt_iff₀ (two_zpow_pos _)]
    calc r.value < 2 ^ (r.log2 + 1) := (isLog2_log2 hr.1 hr.2).2
      _ ≤ 2 ^ (53 + ratioExponent r) := zpow_le_zpow_right₀ one_le_two (by
        rw [ratioExponent]
        omega)
      _ = 2 ^ 53 * 2 ^ ratioExponent r := two_zpow_add 53 _
  have hnear := abs_sub_nearest_le (div_nonneg (value_nonneg r) (two_zpow_pos (ratioExponent r)).le)
  rw [abs_le] at hnear
  have hle : ((ratioMantissa r : Nat) : ℚ) < (2 ^ 53 + 1 : Nat) := by
    rw [ratioMantissa]
    push_cast
    linarith
  exact Nat.le_of_lt_succ (Nat.cast_lt.mp hle)

theorem le_ratioMantissa {r : Ratio} (hr : 0 < r.num ∧ 0 < r.den) (h : ratioExponent r ≠ -1074) :
    2 ^ 52 ≤ ratioMantissa r := by
  have hexponent : ratioExponent r = r.log2 - 52 := by
    rw [ratioExponent] at h ⊢
    omega
  have hle : 2 ^ 52 ≤ r.value / 2 ^ ratioExponent r := by
    rw [le_div_iff₀ (two_zpow_pos _)]
    calc (2 : ℚ) ^ 52 * 2 ^ ratioExponent r = 2 ^ (52 + ratioExponent r) := (two_zpow_add 52 _).symm
      _ = 2 ^ r.log2 := by rw [hexponent]; congr 1; ring
      _ ≤ r.value := (isLog2_log2 hr.1 hr.2).1
  have hnear := abs_sub_nearest_le (div_nonneg (value_nonneg r) (two_zpow_pos (ratioExponent r)).le)
  rw [abs_le] at hnear
  have hlt : ((2 ^ 52 : Nat) : ℚ) < (ratioMantissa r + 1 : Nat) := by
    rw [ratioMantissa]
    push_cast
    linarith
  exact Nat.le_of_lt_succ (Nat.cast_lt.mp hlt)

theorem isCanonical_ofRatio {r : Ratio} (hr : 0 < r.num ∧ 0 < r.den) (negative : Bool) :
    (ofRatio negative r).IsCanonical := by
  have hle := ratioMantissa_le hr
  have hlow : -1074 ≤ ratioExponent r := le_max_right _ _
  rw [ofRatio_eq hr]
  split
  · split
    · trivial
    · exact ⟨by norm_num, by omega, by omega, .inl (Nat.le_refl _)⟩
  · split
    · trivial
    · refine ⟨by omega, hlow, by omega, ?_⟩
      by_cases h : ratioExponent r = -1074
      · exact .inr h
      · exact .inl (le_ratioMantissa hr h)

/-! ## Near a number -/

/-- Whether a ratio is nearer to a number than to any other. Below a power of two the numbers stand
closer together. -/
structure Near (x : ℚ) (m : Nat) (q : Int) : Prop where
  abs_lt : |x - m * 2 ^ q| < 2 ^ q / 2
  below : m = 2 ^ 52 → m * 2 ^ q - x < 2 ^ q / 4

theorem nearest_div_eq {x : ℚ} (hx : 0 ≤ x) {m : Nat} {q : Int} (h : |x - m * 2 ^ q| < 2 ^ q / 2) :
    nearest (x / 2 ^ q) = m := by
  have hpos := two_zpow_pos q
  refine nearest_eq (div_nonneg hx hpos.le) ?_
  rw [show x / 2 ^ q - m = (x - m * 2 ^ q) / 2 ^ q by field_simp, abs_div, abs_of_pos hpos,
    div_lt_iff₀ hpos]
  linarith

theorem ratioExponent_eq {r : Ratio} {e : Int} (hr : 0 < r.num ∧ 0 < r.den) (h : IsLog2 r.value e) :
    ratioExponent r = max (e - 52) (-1074) := by
  rw [ratioExponent, (isLog2_log2 hr.1 hr.2).unique h]

theorem isLog2_add {x : ℚ} {n : Nat} {q : Int} (hle : 2 ^ n * 2 ^ q ≤ x)
    (hlt : x < 2 ^ (n + 1) * 2 ^ q) : IsLog2 x (n + q) := by
  constructor
  · rwa [two_zpow_add]
  · rwa [show (n : Int) + q + 1 = (n + 1 : Nat) + q by push_cast; ring, two_zpow_add]

section Near

variable {r : Ratio} {negative : Bool} {m : Nat} {q : Int}

/-- Where the exponent is that of the number, the mantissa is as well. -/
theorem ofRatio_of_ratioExponent (hr : 0 < r.num ∧ 0 < r.den) (hm : m < 2 ^ 53) (hhigh : q ≤ 971)
    (h : |r.value - m * 2 ^ q| < 2 ^ q / 2) (hq : ratioExponent r = q) :
    ofRatio negative r = .finite negative m q := by
  have hmantissa : ratioMantissa r = m := by
    rw [ratioMantissa, hq, nearest_div_eq (value_nonneg r) h]
  rw [ofRatio_eq hr, hmantissa, hq, if_neg (by omega), if_neg (by omega)]

/-- Just below a power of two the exponent is smaller, and the mantissa is rounded up to that power. -/
theorem ofRatio_of_below (hr : 0 < r.num ∧ 0 < r.den) (hlow : -1074 < q) (hhigh : q ≤ 971)
    (h : Near r.value (2 ^ 52) q) (hlt : r.value < 2 ^ 52 * 2 ^ q) :
    ofRatio negative r = .finite negative (2 ^ 52) q := by
  have hpos := two_zpow_pos q
  have hbelow := h.below rfl
  push_cast at hbelow
  have hhalf : (2 : ℚ) ^ (q - 1) = 2 ^ q / 2 := by rw [zpow_sub_one₀ two_ne_zero]; ring
  have hlog : IsLog2 r.value ((51 : Nat) + q) := isLog2_add (by linarith) hlt
  have hexponent : ratioExponent r = q - 1 := by
    rw [ratioExponent_eq hr hlog]
    omega
  have hmantissa : ratioMantissa r = 2 ^ 53 := by
    rw [ratioMantissa, hexponent]
    refine nearest_div_eq (value_nonneg r) ?_
    rw [hhalf, abs_lt]
    push_cast
    constructor <;> linarith
  rw [ofRatio_eq hr, if_pos hmantissa, hexponent, if_neg (by omega)]
  simp

theorem ofRatio_eq_finite (hr : 0 < r.num ∧ 0 < r.den)
    (hcanonical : (finite negative m q).IsCanonical) (h : Near r.value m q) :
    ofRatio negative r = .finite negative m q := by
  obtain ⟨hm, hlow, hhigh, hfull⟩ := hcanonical
  have hpos := two_zpow_pos q
  have hnear := abs_lt.mp h.abs_lt
  have hm' : (m : ℚ) + 1 ≤ 2 ^ 53 := by exact_mod_cast hm
  have hupper : r.value < 2 ^ 53 * 2 ^ q := by nlinarith
  by_cases hbinade : (2 : ℚ) ^ 52 * 2 ^ q ≤ r.value
  · refine ofRatio_of_ratioExponent hr hm hhigh h.abs_lt ?_
    have hlog : IsLog2 r.value ((52 : Nat) + q) := isLog2_add hbinade hupper
    rw [ratioExponent_eq hr hlog]
    omega
  rw [not_le] at hbinade
  by_cases hq : q = -1074
  · refine ofRatio_of_ratioExponent hr hm hhigh h.abs_lt ?_
    have hpow : (2 : ℚ) ^ r.log2 < 2 ^ (((52 : Nat) : Int) + q) := by
      rw [two_zpow_add]
      exact lt_of_le_of_lt (isLog2_log2 hr.1 hr.2).1 hbinade
    have hlt : r.log2 < ((52 : Nat) : Int) + q :=
      (zpow_lt_zpow_iff_right₀ (by norm_num : (1 : ℚ) < 2)).mp hpow
    rw [ratioExponent]
    omega
  · -- The number is a power of two, and the ratio below it.
    have hle : 2 ^ 52 ≤ m := hfull.resolve_right hq
    have hlt : (m : ℚ) < (2 ^ 52 + 1 : Nat) := by
      push_cast
      nlinarith
    obtain rfl : m = 2 ^ 52 := Nat.le_antisymm (Nat.le_of_lt_succ (Nat.cast_lt.mp hlt)) hle
    exact ofRatio_of_below hr (by omega) hhigh h hbinade

end Near

end RouteFleet.Binary64
