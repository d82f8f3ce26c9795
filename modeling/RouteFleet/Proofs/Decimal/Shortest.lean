import Mathlib.Tactic.NormNum.Pow
import RouteFleet.Proofs.Decimal.Binary64

/-! # The shortest decimals of numbers

Seventeen digits are enough for some decimal to be read as a given number, so the one with which the
number is written is read back as it (`ofDecimal_shortest`).
-/

namespace RouteFleet.Binary64

open Ratio

/-! ## Decimals -/

theorem countDigits_pos (n : Nat) : 0 < countDigits n := Nat.length_toDigits_pos

theorem countDigits_le_iff {n c : Nat} (hc : 0 < c) : countDigits n ≤ c ↔ n < 10 ^ c :=
  Nat.length_toDigits_le_iff (by decide) hc

theorem pow_countDigits_le {n : Nat} (hn : n ≠ 0) : 10 ^ (countDigits n - 1) ≤ n := by
  by_cases h : countDigits n - 1 = 0
  · rw [h]
    exact Nat.one_le_iff_ne_zero.mpr hn
  · refine not_lt.mp fun hlt => ?_
    have := (countDigits_le_iff (Nat.pos_of_ne_zero h)).mpr hlt
    omega

theorem lt_pow_countDigits (n : Nat) : n < 10 ^ countDigits n :=
  (countDigits_le_iff (countDigits_pos n)).mp (Nat.le_refl _)

theorem countDigits_mul_pow {n : Nat} (hn : n ≠ 0) (i : Nat) :
    countDigits (n * 10 ^ i) = countDigits n + i := by
  have hpos := countDigits_pos n
  refine Nat.le_antisymm ?_ (not_lt.mp fun hlt => ?_)
  · rw [countDigits_le_iff (by omega), Nat.pow_add]
    exact Nat.mul_lt_mul_of_pos_right (lt_pow_countDigits n) (by positivity)
  · have hle : n * 10 ^ i < 10 ^ (countDigits n + i - 1) := by
      by_cases h : countDigits n + i - 1 = 0
      · have hpos' := countDigits_pos (n * 10 ^ i)
        omega
      · exact (countDigits_le_iff (Nat.pos_of_ne_zero h)).mp (by omega)
    rw [show countDigits n + i - 1 = countDigits n - 1 + i by omega, Nat.pow_add] at hle
    exact absurd (Nat.lt_of_mul_lt_mul_right hle) (not_lt.mpr (pow_countDigits_le hn))

/-- The number that a decimal is. -/
def decimalValue (n : Nat) (k : Int) : ℚ := n * 10 ^ k

theorem value_scaled_ten (n : Nat) (k : Int) : (scaled n 10 k).value = decimalValue n k :=
  value_scaled n 10 k

theorem scaled_pos {n b : Nat} (hn : n ≠ 0) (hb : b ≠ 0) (k : Int) :
    0 < (scaled n b k).num ∧ 0 < (scaled n b k).den := by
  refine ⟨?_, den_scaled_pos n hb k⟩
  rw [scaled]
  split
  · exact Nat.mul_pos (Nat.pos_of_ne_zero hn) (Nat.pow_pos (Nat.pos_of_ne_zero hb))
  · exact Nat.pos_of_ne_zero hn

/-- Zeros after the digits make no difference. -/
theorem ofDecimal_mul_pow (negative : Bool) (n : Nat) (k : Int) (i : Nat) :
    ofDecimal negative (n * 10 ^ i) (k - i) = ofDecimal negative n k := by
  by_cases hn : n = 0
  · simp [ofDecimal, hn]
  · have hmul : n * 10 ^ i ≠ 0 := Nat.mul_ne_zero hn (by positivity)
    have hsize : (countDigits (n * 10 ^ i) : Int) + (k - i) = countDigits n + k := by
      rw [countDigits_mul_pow hn]
      push_cast
      ring
    have hratio : ofRatio negative (scaled (n * 10 ^ i) 10 (k - i)) =
        ofRatio negative (scaled n 10 k) := by
      refine ofRatio_eq_of_value_eq (scaled_pos hmul (by decide) _) (scaled_pos hn (by decide) _) ?_ _
      rw [value_scaled, value_scaled]
      push_cast
      rw [mul_assoc, ← zpow_natCast, ← zpow_add₀ (by norm_num)]
      congr 2
      ring
    simp only [ofDecimal, hsize, hratio, hn, hmul, decide_false]

theorem isCanonical_ofDecimal (negative : Bool) (n : Nat) (k : Int) :
    (ofDecimal negative n k).IsCanonical := by
  rw [ofDecimal]
  split
  · exact ⟨by norm_num, by norm_num, by norm_num, .inr rfl⟩
  · rename_i h
    split
    · trivial
    · have hn : n ≠ 0 := by
        rintro rfl
        exact h rfl
      exact isCanonical_ofRatio (scaled_pos hn (by decide) k) negative

/-- The sign of a decimal is that of the number. -/
theorem ofDecimal_negative {n : Nat} {k : Int} {m : Nat} {q : Int}
    (h : ofDecimal false n k = .finite false m q) (negative : Bool) :
    ofDecimal negative n k = .finite negative m q := by
  cases negative with
  | false => exact h
  | true =>
    rw [ofDecimal] at h ⊢
    split at h
    · rename_i hzero
      obtain ⟨-, rfl, rfl⟩ := finite.inj h
      rw [if_pos hzero]
    · rename_i hzero
      split at h
      · exact nomatch h
      · rename_i hlarge
        have hn : n ≠ 0 := by
          rintro rfl
          exact hzero rfl
        rw [if_neg hzero, if_neg hlarge]
        rw [ofRatio_eq (scaled_pos hn (by decide) k)] at h ⊢
        split at h
        · rename_i hcarry
          rw [if_pos hcarry]
          split at h
          · exact nomatch h
          · rename_i hfinite
            obtain ⟨-, rfl, rfl⟩ := finite.inj h
            rw [if_neg hfinite]
        · rename_i hcarry
          rw [if_neg hcarry]
          split at h
          · exact nomatch h
          · rename_i hfinite
            obtain ⟨-, rfl, rfl⟩ := finite.inj h
            rw [if_neg hfinite]

/-! ## Decimals near a number -/

theorem ten_zpow_pos (e : Int) : (0 : ℚ) < 10 ^ e := zpow_pos (by norm_num) e

theorem lt_of_ten_zpow_lt {e e' : Int} (h : (10 : ℚ) ^ e < 10 ^ e') : e < e' :=
  (zpow_lt_zpow_iff_right₀ (by norm_num : (1 : ℚ) < 10)).mp h

theorem decimalValue_lt (n : Nat) (k : Int) : decimalValue n k < 10 ^ ((countDigits n : Int) + k) := by
  have hlt : (n : ℚ) < 10 ^ (countDigits n : Int) := by exact_mod_cast lt_pow_countDigits n
  rw [decimalValue, zpow_add₀ (by norm_num)]
  exact mul_lt_mul_of_pos_right hlt (ten_zpow_pos k)

theorem le_decimalValue {n : Nat} (hn : n ≠ 0) (k : Int) :
    10 ^ ((countDigits n : Int) + k - 1) ≤ decimalValue n k := by
  have hpos := countDigits_pos n
  have hle : (10 : ℚ) ^ ((countDigits n - 1 : Nat) : Int) ≤ n := by
    exact_mod_cast pow_countDigits_le hn
  rw [decimalValue, show (countDigits n : Int) + k - 1 = (countDigits n - 1 : Nat) + k by omega,
    zpow_add₀ (by norm_num)]
  exact mul_le_mul_of_nonneg_right hle (ten_zpow_pos k).le

/-- A decimal that is nearer to a number than to any other is read as that number. -/
theorem ofDecimal_eq_finite {negative : Bool} {n : Nat} {k : Int} {m : Nat} {q : Int}
    (hcanonical : (finite negative m q).IsCanonical) (hn : n ≠ 0) (hm : m ≠ 0)
    (h : Near (decimalValue n k) m q) : ofDecimal negative n k = .finite negative m q := by
  have hnear := abs_lt.mp h.abs_lt
  obtain ⟨hlt, hlow, hhigh, -⟩ := id hcanonical
  have hpos := two_zpow_pos q
  have hone : (1 : ℚ) ≤ m := by exact_mod_cast Nat.one_le_iff_ne_zero.mpr hm
  have hmax : (m : ℚ) + 1 ≤ 2 ^ 53 := by exact_mod_cast hlt
  have hsmall : (10 : ℚ) ^ (-330 : Int) < decimalValue n k := by
    have hq : (2 : ℚ) ^ (-1074 : Int) ≤ 2 ^ q := zpow_le_zpow_right₀ one_le_two hlow
    have htiny : (2 : ℚ) * 10 ^ (-330 : Int) < 2 ^ (-1074 : Int) := by
      have hnat : 2 * 2 ^ 1074 < 10 ^ 330 := by decide +kernel
      have hcast : (2 : ℚ) * 2 ^ 1074 < 10 ^ 330 := by exact_mod_cast hnat
      rw [zpow_neg, zpow_neg, ← div_eq_mul_inv, div_lt_iff₀ (ten_zpow_pos 330), ← div_eq_inv_mul,
        lt_div_iff₀ (two_zpow_pos 1074)]
      exact hcast
    nlinarith
  have hlarge : decimalValue n k < (10 : ℚ) ^ (310 : Int) := by
    have hq : (2 : ℚ) ^ q ≤ 2 ^ (971 : Int) := zpow_le_zpow_right₀ one_le_two hhigh
    have hnat : 2 ^ 53 * 2 ^ 971 < 10 ^ 310 := by decide +kernel
    have hhuge : (2 : ℚ) ^ 53 * 2 ^ 971 < 10 ^ 310 := by exact_mod_cast hnat
    calc decimalValue n k < (m + 1) * 2 ^ q := by linarith
      _ ≤ 2 ^ 53 * 2 ^ q := mul_le_mul_of_nonneg_right hmax hpos.le
      _ ≤ 2 ^ 53 * 2 ^ (971 : Int) := mul_le_mul_of_nonneg_left hq (by norm_num)
      _ < 10 ^ (310 : Int) := hhuge
  have hsize := lt_of_ten_zpow_lt (hsmall.trans (decimalValue_lt n k))
  have hsize' := lt_of_ten_zpow_lt ((le_decimalValue hn k).trans_lt hlarge)
  have hzero : (decide (n = 0) || decide ((countDigits n : Int) + k < -330)) = false := by
    simp [hn]
    omega
  rw [ofDecimal]
  simp only [hzero, Bool.false_eq_true, if_false, if_neg (show ¬ 310 < (countDigits n : Int) + k by omega)]
  exact ofRatio_eq_finite (scaled_pos hn (by decide) k) hcanonical (value_scaled_ten n k ▸ h)

/-! ## Seventeen digits -/

theorem num_mul_den_lt_iff {r t : Ratio} (hr : 0 < r.den) (ht : 0 < t.den) :
    r.num * t.den < t.num * r.den ↔ r.value < t.value := by
  rw [value, value, div_lt_div_iff₀ (Nat.cast_pos.mpr hr) (Nat.cast_pos.mpr ht)]
  exact_mod_cast Iff.rfl

theorem ten_zpow_countDigits {n : Nat} (hn : 0 < n) :
    (10 : ℚ) ^ ((countDigits n : Int) - 1) ≤ n ∧ (n : ℚ) < 10 ^ (countDigits n : Int) := by
  refine ⟨?_, by exact_mod_cast lt_pow_countDigits n⟩
  have hpos := countDigits_pos n
  rw [show (countDigits n : Int) - 1 = (countDigits n - 1 : Nat) by omega]
  exact_mod_cast pow_countDigits_le hn.ne'

/-- By the digits of its numerator and its denominator, a ratio is known up to a factor of a hundred. -/
theorem ten_zpow_le_value {r : Ratio} (hr : 0 < r.num ∧ 0 < r.den) :
    (10 : ℚ) ^ ((countDigits r.num : Int) - countDigits r.den - 1) ≤ r.value := by
  rw [value, le_div_iff₀ (Nat.cast_pos.mpr hr.2)]
  generalize hnum : (countDigits r.num : Int) = a
  generalize hden : (countDigits r.den : Int) = b
  calc (10 : ℚ) ^ (a - b - 1) * r.den ≤ 10 ^ (a - b - 1) * 10 ^ b :=
        mul_le_mul_of_nonneg_left (hden ▸ (ten_zpow_countDigits hr.2).2.le) (ten_zpow_pos _).le
    _ = 10 ^ (a - 1) := by rw [← zpow_add₀ (by norm_num)]; congr 1; ring
    _ ≤ r.num := hnum ▸ (ten_zpow_countDigits hr.1).1

theorem value_lt_ten_zpow {r : Ratio} (hr : 0 < r.num ∧ 0 < r.den) :
    r.value < (10 : ℚ) ^ ((countDigits r.num : Int) - countDigits r.den + 1) := by
  rw [value, div_lt_iff₀ (Nat.cast_pos.mpr hr.2)]
  generalize hnum : (countDigits r.num : Int) = a
  generalize hden : (countDigits r.den : Int) = b
  calc (r.num : ℚ) < 10 ^ a := hnum ▸ (ten_zpow_countDigits hr.1).2
    _ = 10 ^ (a - b + 1) * 10 ^ (b - 1) := by rw [← zpow_add₀ (by norm_num)]; congr 1; ring
    _ ≤ 10 ^ (a - b + 1) * r.den :=
        mul_le_mul_of_nonneg_left (hden ▸ (ten_zpow_countDigits hr.2).1) (ten_zpow_pos _).le

/-- The magnitude is the number of digits before the point. -/
theorem magnitude_spec {m : Nat} (hm : m ≠ 0) (q : Int) :
    (10 : ℚ) ^ (magnitude m q - 1) ≤ m * 2 ^ q ∧ (m * 2 ^ q : ℚ) < 10 ^ magnitude m q := by
  have hr := scaled_pos hm two_ne_zero q
  have hvalue : (scaled m 2 q).value = m * 2 ^ q := value_scaled m 2 q
  rw [← hvalue]
  have hbelow : ∀ k : Int, (scaled m 2 q).num * (scaled 1 10 k).den <
      (scaled 1 10 k).num * (scaled m 2 q).den ↔ (scaled m 2 q).value < 10 ^ k := by
    intro k
    rw [num_mul_den_lt_iff hr.2 (scaled_pos one_ne_zero (by decide) k).2, value_scaled 1 10 k]
    simp
  rw [magnitude]
  simp only [hbelow]
  split
  · rename_i h
    exact ⟨ten_zpow_le_value hr, by simpa using h⟩
  · rename_i h
    exact ⟨by simpa using h, value_lt_ten_zpow hr⟩

/-- The greatest digits, with the last of them at a place, that are not above a number. -/
def lowDigits (m : Nat) (q k : Int) : Nat :=
  ((scaled m 2 q).num * (scaled 1 10 k).den) / ((scaled m 2 q).den * (scaled 1 10 k).num)

theorem lowDigits_spec {m : Nat} (hm : m ≠ 0) (q k : Int) :
    decimalValue (lowDigits m q k) k ≤ m * 2 ^ q ∧
      (m * 2 ^ q : ℚ) < decimalValue (lowDigits m q k + 1) k := by
  obtain ⟨-, hden⟩ := scaled_pos hm two_ne_zero q
  obtain ⟨hunum, huden⟩ := scaled_pos one_ne_zero (b := 10) (by decide) k
  have hpos := ten_zpow_pos k
  have hquotient : ((scaled m 2 q).num * (scaled 1 10 k).den : Nat) /
      ((scaled m 2 q).den * (scaled 1 10 k).num : Nat) = (m * 2 ^ q : ℚ) / 10 ^ k := by
    have hv : (m * 2 ^ q : ℚ) = (scaled m 2 q).value := (value_scaled m 2 q).symm
    have hu : (10 : ℚ) ^ k = (scaled 1 10 k).value := by
      rw [value_scaled 1 10 k]
      simp
    rw [hv, hu, value, value, div_div_div_eq]
    push_cast
    rfl
  have hfloor : lowDigits m q k = ⌊(m * 2 ^ q : ℚ) / 10 ^ k⌋₊ := by
    rw [← hquotient, Nat.floor_div_eq_div]
    rfl
  have hnonneg : (0 : ℚ) ≤ m * 2 ^ q / 10 ^ k :=
    div_nonneg (mul_nonneg (Nat.cast_nonneg m) (two_zpow_pos q).le) hpos.le
  have hlow := Nat.floor_le hnonneg
  have hhigh := Nat.lt_floor_add_one ((m * 2 ^ q : ℚ) / 10 ^ k)
  rw [← hfloor] at hlow hhigh
  rw [le_div_iff₀ hpos] at hlow
  rw [div_lt_iff₀ hpos] at hhigh
  refine ⟨hlow, ?_⟩
  rw [decimalValue]
  push_cast
  exact hhigh

/-- One of the two decimals of seventeen digits around a number is read as it. -/
theorem readsBack_seventeen {m : Nat} {q : Int} (hcanonical : (finite false m q).IsCanonical)
    (hm : m ≠ 0) {k : Int} (hk : (10 : ℚ) ^ 16 * 10 ^ k ≤ m * 2 ^ q) :
    ofDecimal false (lowDigits m q k) k = .finite false m q ∨
      ofDecimal false (lowDigits m q k + 1) k = .finite false m q := by
  obtain ⟨hlow, hhigh⟩ := lowDigits_spec hm q k
  have hpos := two_zpow_pos q
  have hunit := ten_zpow_pos k
  have hmax : (m : ℚ) ≤ 2 ^ 53 := by exact_mod_cast Nat.le_of_lt hcanonical.1
  have hnext : decimalValue (lowDigits m q k + 1) k = decimalValue (lowDigits m q k) k + 10 ^ k := by
    rw [decimalValue, decimalValue]
    push_cast
    ring
  -- The decimals stand closer together than the numbers.
  have hclose : (10 : ℚ) ^ k < 2 ^ q := by
    have : (10 : ℚ) ^ 16 * 10 ^ k ≤ 2 ^ 53 * 2 ^ q := hk.trans
      (mul_le_mul_of_nonneg_right hmax hpos.le)
    linarith
  have hbelow : m = 2 ^ 52 → (10 : ℚ) ^ k / 2 < 2 ^ q / 4 := by
    rintro rfl
    push_cast at hk
    linarith
  have hne : lowDigits m q k ≠ 0 := by
    intro hzero
    rw [hnext, hzero, decimalValue] at hhigh
    push_cast at hhigh
    linarith
  have hnear : ∀ n : Nat, |decimalValue n k - m * 2 ^ q| ≤ 10 ^ k / 2 → Near (decimalValue n k) m q := by
    intro n hn
    rw [abs_le] at hn
    refine ⟨abs_lt.mpr ⟨by linarith, by linarith⟩, fun h => ?_⟩
    have := hbelow h
    linarith
  rcases le_total (m * 2 ^ q - decimalValue (lowDigits m q k) k) (10 ^ k / 2) with h | h
  · refine .inl (ofDecimal_eq_finite hcanonical hne hm (hnear _ ?_))
    exact abs_le.mpr ⟨by linarith, by linarith⟩
  · refine .inr (ofDecimal_eq_finite hcanonical (Nat.succ_ne_zero _) hm (hnear _ ?_))
    rw [hnext] at hhigh ⊢
    exact abs_le.mpr ⟨by linarith, by linarith⟩

/-! ## The shortest decimal -/

theorem ofDecimal_of_nearest? {m : Nat} {q top : Int} {digits : Nat} {d : Nat × Int}
    (h : nearest? m q top digits = some d) : ofDecimal false d.1 d.2 = .finite false m q := by
  rw [nearest?] at h
  simp only at h
  split at h
  · rename_i hlow hhigh
    rw [decide_eq_true_eq] at hlow hhigh
    split at h
    · obtain rfl := Option.some.inj h
      exact hlow
    split at h
    · obtain rfl := Option.some.inj h
      exact hhigh
    split at h
    · obtain rfl := Option.some.inj h
      exact hlow
    · obtain rfl := Option.some.inj h
      exact hhigh
  · rename_i hlow _
    obtain rfl := Option.some.inj h
    exact of_decide_eq_true hlow
  · rename_i _ hhigh
    obtain rfl := Option.some.inj h
    exact of_decide_eq_true hhigh
  · exact nomatch h

theorem isSome_nearest? {m : Nat} {q top : Int} {digits : Nat}
    (h : ofDecimal false (lowDigits m q (top - digits)) (top - digits) = .finite false m q ∨
      ofDecimal false (lowDigits m q (top - digits) + 1) (top - digits) = .finite false m q) :
    (nearest? m q top digits).isSome := by
  rw [nearest?]
  simp only
  split
  · split
    · rfl
    split
    · rfl
    split <;> rfl
  · rfl
  · rfl
  · rename_i hlow hhigh
    rcases h with h | h
    · exact absurd h (of_decide_eq_false hlow)
    · exact absurd h (of_decide_eq_false hhigh)

theorem ofDecimal_shortestFrom {m : Nat} {q top : Int} {digits fuel : Nat}
    (h : ∃ i < fuel, (nearest? m q top (digits + i)).isSome) :
    ofDecimal false (shortestFrom m q top digits fuel).1 (shortestFrom m q top digits fuel).2 =
      .finite false m q := by
  induction fuel generalizing digits with
  | zero =>
    obtain ⟨i, hi, -⟩ := h
    exact absurd hi (Nat.not_lt_zero i)
  | succ fuel ih =>
    rw [shortestFrom]
    split
    · rename_i d hd
      exact ofDecimal_of_nearest? hd
    · rename_i hnone
      refine ih ?_
      obtain ⟨i, hi, hsome⟩ := h
      cases i with
      | zero =>
        rw [Nat.add_zero, hnone] at hsome
        exact absurd hsome Bool.false_ne_true
      | succ i => exact ⟨i, Nat.lt_of_succ_lt_succ hi, by rwa [Nat.add_assoc, Nat.add_comm 1 i]⟩

theorem ofDecimal_trimZeros (negative : Bool) (fuel : Nat) (d : Nat × Int) :
    ofDecimal negative (trimZeros fuel d).1 (trimZeros fuel d).2 = ofDecimal negative d.1 d.2 := by
  induction fuel generalizing d with
  | zero => rfl
  | succ fuel ih =>
    obtain ⟨n, k⟩ := d
    rw [trimZeros]
    split
    · rename_i h
      rw [Bool.and_eq_true, decide_eq_true_eq] at h
      rw [ih, ← ofDecimal_mul_pow negative (n / 10) (k + 1) 1, pow_one,
        Nat.div_mul_cancel (Nat.dvd_of_mod_eq_zero h.1)]
      congr 1
      simp
    · rfl

/-- The decimal with which a number is written is read back as the number. -/
theorem ofDecimal_shortest {m : Nat} {q : Int} {negative : Bool}
    (hcanonical : (finite negative m q).IsCanonical) (hm : m ≠ 0) :
    ofDecimal negative (shortest m q).1 (shortest m q).2 = .finite negative m q := by
  obtain ⟨hlow, -⟩ := magnitude_spec hm q
  have hseventeen : (10 : ℚ) ^ 16 * 10 ^ (magnitude m q - (17 : Nat)) ≤ m * 2 ^ q := by
    have hsplit : (10 : ℚ) ^ (magnitude m q - 1) = 10 ^ 16 * 10 ^ (magnitude m q - (17 : Nat)) := by
      rw [show magnitude m q - 1 = 16 + (magnitude m q - (17 : Nat)) by push_cast; ring,
        zpow_add₀ (by norm_num)]
      rfl
    rwa [← hsplit]
  have hsome : (nearest? m q (magnitude m q) (1 + 16)).isSome :=
    isSome_nearest? (readsBack_seventeen hcanonical hm hseventeen)
  rw [shortest, ofDecimal_trimZeros]
  exact ofDecimal_negative (ofDecimal_shortestFrom ⟨16, by decide, hsome⟩) negative

end RouteFleet.Binary64
