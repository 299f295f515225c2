import Mathlib.Algebra.Order.Field.Power
import Mathlib.Data.Int.Log
import Mathlib.Data.Rat.Floor
import JsonDecoding.Number.Shortest

/-!
# Rounding to the nearest number

Which number a decimal is read as depends only on its value (`nearestRank_congr`,
`ofDecimal_shifted`), and the exact decimal of a finite number is read as that number
(`ofDecimal_exactDecimal`). So the decimal by which a number is shown, whether a shorter one that
reads back was found or not, is read as that number (`ofDecimal_shown`).
-/

namespace JsonDecoding

namespace Binary64

/-! ## Quotients -/

theorem roundQuotient_mul_left {factor : Nat} (hfactor : 0 < factor) (n d : Nat) :
    roundQuotient (factor * n) (factor * d) = roundQuotient n d := by
  have hbelow : 2 * (factor * (n % d)) < factor * d ↔ 2 * (n % d) < d := by
    rw [Nat.mul_left_comm]
    exact Nat.mul_lt_mul_left hfactor
  have habove : factor * d < 2 * (factor * (n % d)) ↔ d < 2 * (n % d) := by
    rw [Nat.mul_left_comm]
    exact Nat.mul_lt_mul_left hfactor
  simp only [roundQuotient, Nat.mul_div_mul_left _ _ hfactor, Nat.mul_mod_mul_left, hbelow, habove]

/-- Rounding depends on the quotient only. -/
theorem roundQuotient_congr {n d n' d' : Nat} (hd : 0 < d) (hd' : 0 < d')
    (h : n * d' = n' * d) : roundQuotient n d = roundQuotient n' d' := by
  calc roundQuotient n d = roundQuotient (d' * n) (d' * d) := (roundQuotient_mul_left hd' n d).symm
    _ = roundQuotient (d * n') (d * d') := by
      rw [Nat.mul_comm d' n, h, Nat.mul_comm n' d, Nat.mul_comm d' d]
    _ = roundQuotient n' d' := roundQuotient_mul_left hd n' d'

theorem roundQuotient_mul_self (m : Nat) {d : Nat} (hd : 0 < d) : roundQuotient (m * d) d = m := by
  simp [roundQuotient, Nat.mul_div_cancel _ hd, Nat.mul_mod_left, hd]

/-- A power of two as a quotient of two whole ones. -/
theorem zpow_eq_div (e : Int) : (2 : ℚ) ^ e = 2 ^ e.toNat / 2 ^ (-e).toNat := by
  rcases Int.le_total 0 e with h | h
  · obtain ⟨k, rfl⟩ := Int.eq_ofNat_of_zero_le h
    simp
  · obtain ⟨k, hk⟩ := Int.eq_ofNat_of_zero_le (Int.neg_nonneg.mpr h)
    obtain rfl : e = -(k : Int) := by omega
    simp

/-- A power of two is compared to a quotient in whole numbers. -/
theorem zpow_le_div_iff {n d : Nat} (hd : 0 < d) (e : Int) :
    (2 : ℚ) ^ e ≤ (n : ℚ) / d ↔ d * 2 ^ e.toNat ≤ n * 2 ^ (-e).toNat := by
  have hdq : (0 : ℚ) < d := by exact_mod_cast hd
  rw [zpow_eq_div, div_le_div_iff₀ (by positivity) hdq, mul_comm]
  exact_mod_cast Iff.rfl

section LeadingBit

variable {n d : Nat}

/-- A quotient lies less than a factor of two below that of the leading bits. -/
theorem zpow_log2_le_div (hn : 0 < n) (hd : 0 < d) :
    (2 : ℚ) ^ ((n.log2 : Int) - d.log2 - 1) ≤ (n : ℚ) / d := by
  have hnlow : (2 : ℚ) ^ (n.log2 : Int) ≤ n := by exact_mod_cast Nat.log2_self_le (by omega)
  have hdhigh : (d : ℚ) ≤ 2 ^ ((d.log2 + 1 : Nat) : Int) := by
    exact_mod_cast (Nat.lt_log2_self : d < 2 ^ (d.log2 + 1)).le
  rw [le_div_iff₀ (by exact_mod_cast hd)]
  calc (2 : ℚ) ^ ((n.log2 : Int) - d.log2 - 1) * d
      ≤ 2 ^ ((n.log2 : Int) - d.log2 - 1) * 2 ^ ((d.log2 + 1 : Nat) : Int) := by gcongr
    _ = 2 ^ (n.log2 : Int) := by
      rw [← zpow_add₀ (by norm_num)]
      congr 1
      push_cast
      ring
    _ ≤ n := hnlow

/-- A quotient lies less than a factor of two above that of the leading bits. -/
theorem div_lt_zpow_log2 (hd : 0 < d) :
    (n : ℚ) / d < 2 ^ ((n.log2 : Int) - d.log2 + 1) := by
  have hnhigh : (n : ℚ) < 2 ^ ((n.log2 + 1 : Nat) : Int) := by
    exact_mod_cast (Nat.lt_log2_self : n < 2 ^ (n.log2 + 1))
  have hdlow : (2 : ℚ) ^ (d.log2 : Int) ≤ d := by exact_mod_cast Nat.log2_self_le (by omega)
  rw [div_lt_iff₀ (by exact_mod_cast hd)]
  calc (n : ℚ) < 2 ^ ((n.log2 + 1 : Nat) : Int) := hnhigh
    _ = 2 ^ ((n.log2 : Int) - d.log2 + 1) * 2 ^ (d.log2 : Int) := by
      rw [← zpow_add₀ (by norm_num)]
      congr 1
      push_cast
      ring
    _ ≤ 2 ^ ((n.log2 : Int) - d.log2 + 1) * d := by gcongr

/-- **The leading bit** is the logarithm of the quotient, so it depends on nothing else. -/
theorem leadingBit_eq_log (hn : 0 < n) (hd : 0 < d) : leadingBit n d = Int.log 2 ((n : ℚ) / d) := by
  have hq : (0 : ℚ) < (n : ℚ) / d := by
    have hnq : (0 : ℚ) < n := by exact_mod_cast hn
    have hdq : (0 : ℚ) < d := by exact_mod_cast hd
    positivity
  -- one bit remains open, and the comparison of `leadingBit` decides it
  have hlow := (Int.zpow_le_iff_le_log one_lt_two hq).mp (zpow_log2_le_div hn hd)
  have hhigh := (Int.lt_zpow_iff_log_lt one_lt_two hq).mp (div_lt_zpow_log2 hd)
  have htest := (zpow_le_div_iff hd ((n.log2 : Int) - d.log2)).symm.trans
    (Int.zpow_le_iff_le_log one_lt_two hq)
  simp only [leadingBit, Nat.pow_eq, htest]
  split <;> omega

end LeadingBit

/-- **The nearest rank depends on the quotient only.** -/
theorem nearestRank_congr {n d n' d' : Nat} (hn : 0 < n) (hd : 0 < d) (hn' : 0 < n') (hd' : 0 < d')
    (h : n * d' = n' * d) : nearestRank n d = nearestRank n' d' := by
  have hquotient : (n : ℚ) / d = (n' : ℚ) / d' := by
    rw [div_eq_div_iff (by positivity) (by positivity)]
    exact_mod_cast h
  have hbit : leadingBit n d = leadingBit n' d' := by
    rw [leadingBit_eq_log hn hd, leadingBit_eq_log hn' hd', hquotient]
  simp only [nearestRank, hbit, Nat.pow_eq]
  congr 1
  refine roundQuotient_congr (by positivity) (by positivity) ?_
  rw [Nat.mul_mul_mul_comm, h, Nat.mul_mul_mul_comm]

/-! ## Exact numbers -/

/-- A finite number is a whole multiple of the unit to which it is rounded. -/
theorem nearestRank_scaled {m : Nat} {s : Int}
    (hunit : max (leadingBit (m * 2 ^ s.toNat) (2 ^ (-s).toNat) - 52) (-1074) = s) :
    nearestRank (m * 2 ^ s.toNat) (2 ^ (-s).toNat) = (s + 1074).toNat * 2 ^ 52 + m := by
  simp only [nearestRank, hunit, Nat.pow_eq]
  congr 1
  have hswap : m * 2 ^ s.toNat * 2 ^ (-s).toNat = m * (2 ^ (-s).toNat * 2 ^ s.toNat) := by
    rw [Nat.mul_assoc, Nat.mul_comm (2 ^ s.toNat)]
  rw [hswap, roundQuotient_mul_self _ (by positivity)]

theorem leadingBit_scaled_lt {m : Nat} {s : Int} (hm : 0 < m) {k : Nat} :
    leadingBit (m * 2 ^ s.toNat) (2 ^ (-s).toNat) < k + s ↔ m < 2 ^ k := by
  rw [leadingBit_eq_log (by positivity) (by positivity)]
  have hvalue : ((m * 2 ^ s.toNat : Nat) : ℚ) / ((2 ^ (-s).toNat : Nat) : ℚ) = m * 2 ^ s := by
    rw [zpow_eq_div]
    push_cast
    ring
  rw [hvalue, ← Int.lt_zpow_iff_log_lt one_lt_two (by positivity)]
  push_cast
  rw [zpow_add₀ (by norm_num), mul_lt_mul_iff_left₀ (by positivity), zpow_natCast]
  exact_mod_cast Iff.rfl

variable {exponent : Fin 2047} {fraction : Fin (Nat.pow 2 52)}

theorem significand_lt (exponent : Fin 2047) (fraction : Fin (Nat.pow 2 52)) :
    significand exponent fraction < 2 ^ 53 := by
  have hfraction := fraction.isLt
  simp only [significand, Nat.pow_eq] at hfraction ⊢
  split <;> omega

/-- The unit of a finite number is the power of two that scales its significand. -/
theorem unit_eq_scale (hm : 0 < significand exponent fraction) :
    max (leadingBit (significand exponent fraction * 2 ^ (scale exponent).toNat)
      (2 ^ (-scale exponent).toNat) - 52) (-1074) = scale exponent := by
  have hfraction := fraction.isLt
  have hhigh := (leadingBit_scaled_lt (s := scale exponent) (k := 53) hm).mpr
    (significand_lt exponent fraction)
  by_cases hexponent : exponent.val = 0
  · -- below the least normal number the unit is the least one
    have hscale : scale exponent = -1074 := by simp [scale, hexponent]
    omega
  · have hlow := (leadingBit_scaled_lt (s := scale exponent) (k := 52) hm).not.mpr (by
      simp [significand, hexponent])
    have hscale : -1074 ≤ scale exponent := by
      simp only [scale]
      omega
    omega

/-- **A finite number is its own nearest one.** -/
theorem ofRank_nearestRank (negative : Bool) (hm : 0 < significand exponent fraction) :
    ofRank negative (nearestRank (significand exponent fraction * 2 ^ (scale exponent).toNat)
      (2 ^ (-scale exponent).toNat)) = .finite negative exponent fraction := by
  have hfraction := fraction.isLt
  have hexponent := exponent.isLt
  have hrank : nearestRank (significand exponent fraction * 2 ^ (scale exponent).toNat)
      (2 ^ (-scale exponent).toNat) = exponent.val * 2 ^ 52 + fraction.val := by
    rw [nearestRank_scaled (unit_eq_scale hm)]
    simp only [significand, scale, Nat.pow_eq]
    split <;> omega
  have hdiv : (exponent.val * 2 ^ 52 + fraction.val) / Nat.pow 2 52 = exponent.val := by
    simp only [Nat.pow_eq] at hfraction ⊢
    omega
  have hmod : (exponent.val * 2 ^ 52 + fraction.val) % Nat.pow 2 52 = fraction.val := by
    simp only [Nat.pow_eq] at hfraction ⊢
    omega
  have hbound : exponent.val * 2 ^ 52 + fraction.val < 2047 * Nat.pow 2 52 := by
    simp only [Nat.pow_eq] at hfraction ⊢
    omega
  simp only [hrank, ofRank, hbound, dif_pos, hdiv, hmod]

end Binary64

/-! ## Decimals of one value -/

namespace Decimal

variable {d : Decimal}

theorem digits_le_iff (hd : 0 < d.coefficient) {k : Nat} :
    d.digits ≤ k ↔ d.coefficient < 10 ^ k := by
  rcases Nat.eq_zero_or_pos k with rfl | hk
  · have hdigits : 0 < d.digits := Nat.length_toDigits_pos
    simp
    omega
  · exact Nat.length_toDigits_le_iff (by norm_num) hk

/-- The same number with more zeros at the end of its coefficient. -/
def shifted (d : Decimal) (zeros : Nat) : Decimal :=
  ⟨d.negative, d.coefficient * 10 ^ zeros, d.exponent - zeros⟩

theorem digits_shifted (hd : 0 < d.coefficient) (zeros : Nat) :
    (d.shifted zeros).digits = d.digits + zeros := by
  have hcoefficient : 0 < (d.shifted zeros).coefficient := by
    simp only [shifted]
    positivity
  apply Nat.le_antisymm
  · rw [digits_le_iff hcoefficient, shifted, Nat.pow_add]
    exact Nat.mul_lt_mul_of_pos_right ((digits_le_iff hd).mp le_rfl) (by positivity)
  · have hlong : zeros < (d.shifted zeros).digits := by
      rw [← Nat.not_le, digits_le_iff hcoefficient, shifted, Nat.not_lt]
      exact Nat.le_mul_of_pos_left _ hd
    have hall : d.coefficient * 10 ^ zeros <
        10 ^ ((d.shifted zeros).digits - zeros) * 10 ^ zeros := by
      rw [← Nat.pow_add, Nat.sub_add_cancel hlong.le]
      exact (digits_le_iff hcoefficient).mp le_rfl
    have hfewer := (digits_le_iff hd).mpr (Nat.lt_of_mul_lt_mul_right hall)
    omega

theorem adjusted_shifted (hd : 0 < d.coefficient) (zeros : Nat) :
    (d.shifted zeros).adjusted = d.adjusted := by
  rw [adjusted, digits_shifted hd, shifted, adjusted]
  push_cast
  ring

/-- Stripping moves zeros from a coefficient to its exponent. -/
theorem strip_eq (fuel c : Nat) (e : Int) :
    ∃ zeros : Nat, c = (strip fuel c e).1 * 10 ^ zeros ∧ (strip fuel c e).2 = e + zeros := by
  induction fuel generalizing c e with
  | zero => exact ⟨0, by simp [strip]⟩
  | succ fuel ih =>
      by_cases hzero : c % 10 = 0
      · obtain ⟨zeros, hc, he⟩ := ih (c / 10) (e + 1)
        refine ⟨zeros + 1, ?_, ?_⟩
        · rw [strip, if_pos hzero, Nat.pow_succ, ← Nat.mul_assoc, ← hc]
          omega
        · rw [strip, if_pos hzero, he]
          push_cast
          ring
      · exact ⟨0, by simp [strip, hzero]⟩

/-- A decimal other than zero is its canonical one, up to zeros at the end. -/
theorem exists_shifted_canonical (hd : 0 < d.coefficient) :
    ∃ zeros, d = d.canonical.shifted zeros := by
  obtain ⟨zeros, hcoefficient, hexponent⟩ := strip_eq d.digits d.coefficient d.exponent
  refine ⟨zeros, ?_⟩
  obtain ⟨negative, coefficient, exponent⟩ := d
  simp only [canonical, shifted, if_neg hd.ne', ← hcoefficient, hexponent]
  simp

end Decimal

namespace Binary64

/-- **Zeros at the end do not matter** to the number that a decimal is read as. -/
theorem ofDecimal_shifted (d : Decimal) (zeros : Nat) :
    ofDecimal (d.shifted zeros) = ofDecimal d := by
  rcases Nat.eq_zero_or_pos d.coefficient with hzero | hd
  · simp [ofDecimal, Decimal.shifted, hzero]
  · have hrank : nearestRank (d.coefficient * 10 ^ zeros * 10 ^ (d.exponent - zeros).toNat)
        (10 ^ (-(d.exponent - zeros)).toNat) =
        nearestRank (d.coefficient * 10 ^ d.exponent.toNat) (10 ^ (-d.exponent).toNat) := by
      refine nearestRank_congr (by positivity) (by positivity) (by positivity) (by positivity) ?_
      simp only [Nat.mul_assoc, ← Nat.pow_add]
      congr 2
      omega
    have hshifted : (d.shifted zeros).coefficient ≠ 0 := by
      simp only [Decimal.shifted]
      positivity
    simp only [ofDecimal, Decimal.adjusted_shifted hd, hshifted, hd.ne', if_false]
    simp only [Decimal.shifted, Nat.pow_eq, hrank]

theorem ofDecimal_canonical {d : Decimal} (hd : 0 < d.coefficient) :
    ofDecimal d.canonical = ofDecimal d := by
  obtain ⟨zeros, hd⟩ := Decimal.exists_shifted_canonical hd
  rw [hd, ofDecimal_shifted, ← hd]

variable {exponent : Fin 2047} {fraction : Fin (Nat.pow 2 52)}

theorem scale_le (exponent : Fin 2047) : scale exponent ≤ 971 := by
  have hexponent := exponent.isLt
  simp only [scale]
  omega

theorem neg_scale_le (exponent : Fin 2047) : -scale exponent ≤ 1074 := by
  simp only [scale]
  omega

theorem exactDecimal_of_nonneg (negative : Bool) (fraction : Fin (Nat.pow 2 52))
    (h : 0 ≤ scale exponent) :
    exactDecimal negative exponent fraction =
      ⟨negative, significand exponent fraction * 2 ^ (scale exponent).toNat, 0⟩ := by
  simp [exactDecimal, h]

theorem exactDecimal_of_neg (negative : Bool) (fraction : Fin (Nat.pow 2 52))
    (h : scale exponent < 0) :
    exactDecimal negative exponent fraction =
      ⟨negative, significand exponent fraction * 5 ^ (-scale exponent).toNat, scale exponent⟩ := by
  simp [exactDecimal, not_le.mpr h]

theorem coefficient_exactDecimal_pos (negative : Bool) (hm : 0 < significand exponent fraction) :
    0 < (exactDecimal negative exponent fraction).coefficient := by
  simp only [exactDecimal, Nat.pow_eq]
  split <;> positivity

/-- Powers of two are bounded by powers of ten, by about three digits for ten bits. -/
theorem two_pow_le_ten_pow (n : Nat) {r k : Nat} (h : 2 ^ r ≤ 10 ^ k) :
    2 ^ (93 * n + r) ≤ 10 ^ (28 * n + k) := by
  have hpower : (2 ^ 93) ^ n ≤ (10 ^ 28) ^ n := Nat.pow_le_pow_left (by norm_num) n
  rw [Nat.pow_add, Nat.pow_add, Nat.pow_mul, Nat.pow_mul]
  exact Nat.mul_le_mul hpower h

section Digits

variable {k : Nat} (negative : Bool)

/-- A fraction of two's powers has at most one digit for each of its places, and those of its
significand. -/
theorem digits_exactDecimal_le (hm : 0 < significand exponent fraction)
    (hscale : scale exponent < 0) (hk : -scale exponent = k) :
    (exactDecimal negative exponent fraction).digits ≤ 16 + k := by
  have hsignificand := significand_lt exponent fraction
  rw [Decimal.digits_le_iff (coefficient_exactDecimal_pos negative hm),
    exactDecimal_of_neg negative fraction hscale, hk, Int.toNat_natCast, Nat.pow_add]
  exact Nat.mul_lt_mul_of_lt_of_le (hsignificand.trans (by norm_num))
    (Nat.pow_le_pow_left (by norm_num) _) (by positivity)

/-- The least numbers still have a digit after some three hundred places. -/
theorem lt_digits_exactDecimal (hm : 0 < significand exponent fraction)
    (hscale : scale exponent < 0) (hk : -scale exponent = k) :
    k < (exactDecimal negative exponent fraction).digits + (28 * 11 + 16) := by
  by_contra hshort
  have hfew : (exactDecimal negative exponent fraction).digits ≤ k - (28 * 11 + 16) := by omega
  rw [Decimal.digits_le_iff (coefficient_exactDecimal_pos negative hm),
    exactDecimal_of_neg negative fraction hscale, hk, Int.toNat_natCast] at hfew
  have hbelow : 5 ^ k * 10 ^ (28 * 11 + 16) < 10 ^ k := by
    calc 5 ^ k * 10 ^ (28 * 11 + 16)
        ≤ significand exponent fraction * 5 ^ k * 10 ^ (28 * 11 + 16) := by
          gcongr
          exact Nat.le_mul_of_pos_left _ hm
      _ < 10 ^ (k - (28 * 11 + 16)) * 10 ^ (28 * 11 + 16) := by gcongr
      _ = 10 ^ k := by rw [← Nat.pow_add, Nat.sub_add_cancel (by omega)]
  have hplaces : 2 ^ k ≤ 10 ^ (28 * 11 + 16) := by
    have hlow := neg_scale_le exponent
    calc 2 ^ k ≤ 2 ^ (93 * 11 + 51) := Nat.pow_le_pow_right (by norm_num) (by omega)
      _ ≤ 10 ^ (28 * 11 + 16) := two_pow_le_ten_pow 11 (by norm_num)
  have habove : 10 ^ k ≤ 5 ^ k * 10 ^ (28 * 11 + 16) := by
    calc 10 ^ k = 5 ^ k * 2 ^ k := by rw [← Nat.mul_pow]
      _ ≤ 5 ^ k * 10 ^ (28 * 11 + 16) := Nat.mul_le_mul_left _ hplaces
  omega

/-- Whole finite numbers have some three hundred digits at most. -/
theorem digits_exactDecimal_le_of_whole (hm : 0 < significand exponent fraction)
    (hscale : 0 ≤ scale exponent) :
    (exactDecimal negative exponent fraction).digits ≤ 28 * 11 + 1 := by
  have hsignificand := significand_lt exponent fraction
  have hhigh := scale_le exponent
  obtain ⟨k, hk⟩ := Int.eq_ofNat_of_zero_le hscale
  rw [Decimal.digits_le_iff (coefficient_exactDecimal_pos negative hm),
    exactDecimal_of_nonneg negative fraction hscale, hk, Int.toNat_natCast]
  have hpower : 2 ^ (53 + k) ≤ 10 ^ (28 * 11 + 1) := by
    calc 2 ^ (53 + k) ≤ 2 ^ (93 * 11 + 1) := Nat.pow_le_pow_right (by norm_num) (by omega)
      _ ≤ 10 ^ (28 * 11 + 1) := two_pow_le_ten_pow 11 (by norm_num)
  calc significand exponent fraction * 2 ^ k < 2 ^ 53 * 2 ^ k := by gcongr
    _ = 2 ^ (53 + k) := (Nat.pow_add 2 53 k).symm
    _ ≤ 10 ^ (28 * 11 + 1) := hpower

/-- Finite numbers lie between the powers of ten at which reading gives up. -/
theorem adjusted_exactDecimal (hm : 0 < significand exponent fraction) :
    (exactDecimal negative exponent fraction).adjusted ≤ 310 ∧
      -326 ≤ (exactDecimal negative exponent fraction).adjusted := by
  have hdigits : 0 < (exactDecimal negative exponent fraction).digits := Nat.length_toDigits_pos
  simp only [Decimal.adjusted]
  rcases lt_or_ge (scale exponent) 0 with hscale | hscale
  · obtain ⟨k, hk⟩ := Int.eq_ofNat_of_zero_le (Int.neg_nonneg.mpr hscale.le)
    have hexponent : (exactDecimal negative exponent fraction).exponent = scale exponent := by
      rw [exactDecimal_of_neg negative fraction hscale]
    have hmost := digits_exactDecimal_le negative hm hscale hk
    have hleast := lt_digits_exactDecimal negative hm hscale hk
    omega
  · have hexponent : (exactDecimal negative exponent fraction).exponent = 0 := by
      rw [exactDecimal_of_nonneg negative fraction hscale]
    have hmost := digits_exactDecimal_le_of_whole negative hm hscale
    omega

end Digits

/-- **Every finite number is read back from its exact decimal.** -/
theorem ofDecimal_exactDecimal (negative : Bool) (hm : 0 < significand exponent fraction) :
    ofDecimal (exactDecimal negative exponent fraction) = .finite negative exponent fraction := by
  obtain ⟨hhigh, hlow⟩ := adjusted_exactDecimal negative hm
  have hcoefficient := coefficient_exactDecimal_pos negative hm
  have hrank : nearestRank
      ((exactDecimal negative exponent fraction).coefficient *
        10 ^ (exactDecimal negative exponent fraction).exponent.toNat)
      (10 ^ (-(exactDecimal negative exponent fraction).exponent).toNat) =
      nearestRank (significand exponent fraction * 2 ^ (scale exponent).toNat)
        (2 ^ (-scale exponent).toNat) := by
    refine nearestRank_congr (by positivity) (by positivity) (by positivity) (by positivity) ?_
    rcases lt_or_ge (scale exponent) 0 with hscale | hscale
    · rw [exactDecimal_of_neg negative fraction hscale]
      simp [Int.toNat_of_nonpos hscale.le, Nat.mul_assoc, ← Nat.mul_pow]
    · rw [exactDecimal_of_nonneg negative fraction hscale]
      have hwhole : (-scale exponent).toNat = 0 := by omega
      simp [hwhole]
  have hnegative : (exactDecimal negative exponent fraction).negative = negative := by
    simp only [exactDecimal]
    split <;> rfl
  rw [ofDecimal, if_neg hcoefficient.ne', if_neg (by omega), if_neg (by omega)]
  simp only [Nat.pow_eq, hrank, hnegative, ofRank_nearestRank negative hm]

/-! ## The shortest decimal -/

theorem ofDecimal_shortest {x : Binary64} {exact : Decimal} (h : ofDecimal exact = x) :
    ofDecimal (shortest x exact) = x := by
  simp only [shortest]
  generalize ((List.range 17).flatMap fun n => neighbours exact (n + 1)) = candidates
  cases hfound : candidates.find? fun c => ofDecimal c = x with
  | none => exact h
  | some c => simpa using List.find?_some hfound

/-- A decimal that is read as a number other than zero is none. -/
theorem coefficient_pos {d : Decimal} {negative : Bool}
    (h : ofDecimal d = .finite negative exponent fraction)
    (hm : 0 < significand exponent fraction) : 0 < d.coefficient := by
  rcases Nat.eq_zero_or_pos d.coefficient with hzero | hpos
  · have hsignificand : significand exponent fraction = 0 := by
      simp only [ofDecimal, hzero, if_true, zero, ofRank] at h
      cases h
      rfl
    omega
  · exact hpos

/-- **The decimal by which a number is shown is read back as that number.** -/
theorem ofDecimal_shown (negative : Bool) (hm : 0 < significand exponent fraction) :
    let x : Binary64 := .finite negative exponent fraction
    let shown := (shortest x (exactDecimal negative exponent fraction)).canonical
    0 < shown.coefficient ∧ ofDecimal shown = x := by
  intro x shown
  have hshort := ofDecimal_shortest (ofDecimal_exactDecimal negative hm)
  have hpos := coefficient_pos hshort hm
  have hshown : ofDecimal shown = x := (ofDecimal_canonical hpos).trans hshort
  exact ⟨coefficient_pos hshown hm, hshown⟩

end Binary64

end JsonDecoding
