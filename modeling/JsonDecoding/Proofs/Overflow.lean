import JsonDecoding.Proofs.Rounding

/-!
# Decimals that are too great

A decimal is read as an infinity exactly when it lies half a unit or more beyond the greatest finite
number (`Binary64.ofDecimal_eq_infinity_iff`), and never as the undefined value
(`Binary64.ofDecimal_ne_nan`).
-/

namespace JsonDecoding

namespace Decimal

/-- The number that a decimal writes, without its sign. -/
def magnitude (d : Decimal) : ℚ := d.coefficient * 10 ^ d.exponent

theorem magnitude_eq_div (d : Decimal) :
    d.magnitude =
      (d.coefficient * 10 ^ d.exponent.toNat : Nat) / (10 ^ (-d.exponent).toNat : Nat) := by
  rw [magnitude]
  rcases Int.le_total 0 d.exponent with h | h
  · obtain ⟨k, hk⟩ := Int.eq_ofNat_of_zero_le h
    simp [hk]
  · obtain ⟨k, hk⟩ := Int.eq_ofNat_of_zero_le (Int.neg_nonneg.mpr h)
    have hexponent : d.exponent = -(k : Int) := by omega
    simp [hexponent, div_eq_mul_inv]

variable {d : Decimal}

/-- The leading digit stands at its power of ten. -/
theorem zpow_adjusted_le (hd : 0 < d.coefficient) : (10 : ℚ) ^ d.adjusted ≤ d.magnitude := by
  have hdigits : ¬d.digits ≤ d.digits - 1 := by
    have hpos : 0 < d.digits := Nat.length_toDigits_pos
    omega
  rw [digits_le_iff hd, not_lt] at hdigits
  have hpower : ((10 ^ (d.digits - 1) : Nat) : ℚ) ≤ d.coefficient := by exact_mod_cast hdigits
  have hadjusted : d.adjusted = ((d.digits - 1 : Nat) : Int) + d.exponent := by
    have hpos : 0 < d.digits := Nat.length_toDigits_pos
    simp only [adjusted]
    omega
  rw [hadjusted, zpow_add₀ (by norm_num), zpow_natCast, magnitude]
  push_cast at hpower
  gcongr

/-- No digit stands above the leading one. -/
theorem magnitude_lt_zpow (hd : 0 < d.coefficient) :
    d.magnitude < (10 : ℚ) ^ (d.adjusted + 1) := by
  have hdigits := (digits_le_iff hd).mp (le_refl d.digits)
  have hpower : (d.coefficient : ℚ) < ((10 ^ d.digits : Nat) : ℚ) := by exact_mod_cast hdigits
  have hadjusted : d.adjusted + 1 = (d.digits : Int) + d.exponent := by
    simp only [adjusted]
    omega
  rw [hadjusted, zpow_add₀ (by norm_num), zpow_natCast, magnitude]
  push_cast at hpower
  gcongr

end Decimal

namespace Binary64

/-! ## Rounding up to an even number -/

/-- A quotient is rounded up to an even number from half a unit below it. -/
theorem le_roundQuotient_iff {n d k : Nat} (hd : 0 < d) (heven : k % 2 = 0) (hk : 0 < k) :
    k ≤ roundQuotient n d ↔ (2 * k - 1) * d ≤ 2 * n := by
  have hn := Nat.div_add_mod n d
  have hr := Nat.mod_lt n hd
  simp only [roundQuotient]
  generalize n / d = q at hn ⊢
  generalize n % d = r at hn hr ⊢
  subst hn
  obtain ⟨j, rfl⟩ : ∃ j, k = j + 1 := ⟨k - 1, by omega⟩
  have hodd : 2 * (j + 1) - 1 = 2 * j + 1 := by omega
  rw [hodd]
  split
  · -- rounded down
    constructor
    · intro h
      nlinarith
    · intro h
      by_contra hlt
      nlinarith
  · split
    · -- rounded up
      constructor
      · intro h
        nlinarith
      · intro h
        by_contra hlt
        nlinarith
    · -- at a tie just below `k` the quotient is odd, so it goes up to `k`
      have htie : 2 * r = d := by omega
      constructor
      · intro h
        have hj : j ≤ q := by omega
        nlinarith
      · intro h
        have hj : j ≤ q := by
          by_contra hlt
          nlinarith
        omega

/-! ## Ranks beyond the finite numbers -/

section Rank

variable {n d : Nat}

theorem le_roundQuotient {k : Nat} (h : k * d ≤ n) (hd : 0 < d) : k ≤ roundQuotient n d := by
  have hq : k ≤ n / d := (Nat.le_div_iff_mul_le hd).mpr h
  simp only [roundQuotient]
  split
  · exact hq
  · split <;> omega

theorem roundQuotient_le {k : Nat} (h : n ≤ k * d) (hd : 0 < d) : roundQuotient n d ≤ k := by
  have hn := Nat.div_add_mod n d
  have hr := Nat.mod_lt n hd
  simp only [roundQuotient]
  generalize n / d = q at hn ⊢
  generalize n % d = r at hn hr ⊢
  subst hn
  have hq : q ≤ k := by
    by_contra hlt
    nlinarith
  split
  · exact hq
  · have hpos : 0 < r := by omega
    have hqk : q < k := by
      by_contra hlt
      nlinarith
    split <;> omega

/-- The greatest finite number and half a unit more. -/
def overflow : ℚ := 2 ^ 1024 - 2 ^ 970

theorem overflow_eq : overflow = (2 ^ 54 - 1) * 2 ^ 970 := by
  rw [overflow, sub_one_mul, ← pow_add]

theorem two_pow_lt_overflow : (2 : ℚ) ^ 1023 < overflow := by
  have hpower : (2 : ℚ) ^ 1023 = 2 ^ 53 * 2 ^ 970 := (pow_add 2 53 970)
  rw [overflow_eq, hpower]
  exact mul_lt_mul_of_pos_right (by norm_num) (by positivity)

theorem overflow_lt_two_pow : overflow < 2 ^ 1024 := sub_lt_self _ (by positivity)

theorem two_pow_le_ten_pow_of_last : (2 : ℚ) ^ 1024 ≤ 10 ^ 311 := by
  have hpower := (Nat.cast_le (α := ℚ)).mpr
    (two_pow_le_ten_pow 11 (show 2 ^ 1 ≤ 10 ^ 3 by norm_num))
  rwa [Nat.cast_pow, Nat.cast_pow, Nat.cast_ofNat, Nat.cast_ofNat] at hpower

theorem one_lt_overflow : 1 < overflow := (one_le_pow₀ one_le_two).trans_lt two_pow_lt_overflow

/-- Below the last power of two the rank is that of a finite number. -/
theorem nearestRank_lt (unit : Int) (hd : 0 < d) (hunit : unit ≤ 970)
    (h : (n : ℚ) / d ≤ 2 ^ (unit + 53)) :
    (unit + 1074).toNat * 2 ^ 52 + roundQuotient (n * 2 ^ (-unit).toNat) (d * 2 ^ unit.toNat) <
      2047 * 2 ^ 52 := by
  have hdq : (0 : ℚ) < d := by exact_mod_cast hd
  rw [zpow_add₀ (by norm_num), zpow_eq_div, div_le_iff₀ hdq, div_mul_eq_mul_div,
    div_mul_eq_mul_div, le_div_iff₀ (by positivity)] at h
  have hscaled : n * 2 ^ (-unit).toNat ≤ 2 ^ 53 * (d * 2 ^ unit.toNat) := by
    have hcast : (n : ℚ) * 2 ^ (-unit).toNat ≤ 2 ^ 53 * (d * 2 ^ unit.toNat) := by
      linarith [h]
    exact_mod_cast hcast
  have hround := roundQuotient_le hscaled (by positivity)
  have hplace : (unit + 1074).toNat ≤ 2044 := by omega
  omega

/-- From the next power of two on, the rank is none of a finite number. -/
theorem le_nearestRank {unit : Int} (hd : 0 < d) (hunit : 972 ≤ unit)
    (h : (2 : ℚ) ^ (unit + 52) ≤ (n : ℚ) / d) :
    2047 * 2 ^ 52 ≤ (unit + 1074).toNat * 2 ^ 52 +
      roundQuotient (n * 2 ^ (-unit).toNat) (d * 2 ^ unit.toNat) := by
  rw [zpow_le_div_iff hd] at h
  have hzero : (-unit).toNat = 0 := by omega
  have hzero' : (-(unit + 52)).toNat = 0 := by omega
  have hpower : (unit + 52).toNat = 52 + unit.toNat := by omega
  rw [hzero', hpower, Nat.pow_add] at h
  have hscaled : 2 ^ 52 * (d * 2 ^ unit.toNat) ≤ n * 2 ^ (-unit).toNat := by
    rw [hzero]
    linarith
  have hround := le_roundQuotient hscaled (by positivity)
  have hplace : 2046 ≤ (unit + 1074).toNat := by omega
  omega

/-- In between, the rounding decides. -/
theorem le_nearestRank_iff_of_last {unit : Int} (hunit : unit = 971) (hd : 0 < d) :
    2047 * 2 ^ 52 ≤ (unit + 1074).toNat * 2 ^ 52 +
        roundQuotient (n * 2 ^ (-unit).toNat) (d * 2 ^ unit.toNat) ↔
      overflow ≤ (n : ℚ) / d := by
  have hdq : (0 : ℚ) < d := by exact_mod_cast hd
  have hscaled (half : Nat) :
      (2 * 2 ^ 53 - 1) * (d * (2 * half)) ≤ 2 * n ↔ (2 ^ 54 - 1) * half * d ≤ n := by
    have hdouble : (2 * 2 ^ 53 - 1) * (d * (2 * half)) = 2 * ((2 ^ 54 - 1) * half * d) := by
      norm_num
      ring
    rw [hdouble]
    exact Nat.mul_le_mul_left_iff two_pos
  -- half a unit gets a name, so that no tactic computes the power
  obtain ⟨half, hhalf⟩ : ∃ half : Nat, half = 2 ^ 970 := ⟨_, rfl⟩
  have hcast : (2 : ℚ) ^ 970 = half := by rw [hhalf, Nat.cast_pow, Nat.cast_ofNat]
  have hplace : (unit + 1074).toNat = 2045 := by omega
  have hzero : (-unit).toNat = 0 := by omega
  have hpower : 2 ^ unit.toNat = 2 * half := by
    have hsucc : unit.toNat = 970 + 1 := by omega
    rw [hsucc, pow_succ', hhalf]
  have hplaces : 2047 * 2 ^ 52 ≤ 2045 * 2 ^ 52 + roundQuotient n (d * (2 * half)) ↔
      2 ^ 53 ≤ roundQuotient n (d * (2 * half)) := by omega
  have hpos : 0 < d * (2 * half) := by
    rw [← hpower]
    positivity
  rw [hplace, hzero, hpower, Nat.pow_zero, Nat.mul_one, hplaces,
    le_roundQuotient_iff hpos (by norm_num) (by norm_num), hscaled, le_div_iff₀ hdq, overflow_eq,
    hcast, ← Nat.cast_le (α := ℚ)]
  norm_num

/-- **The nearest rank lies beyond the finite numbers** exactly for quotients that are at least half
a unit greater than all of them. -/
theorem le_nearestRank_iff (hn : 0 < n) (hd : 0 < d) :
    2047 * Nat.pow 2 52 ≤ nearestRank n d ↔ overflow ≤ (n : ℚ) / d := by
  have hq : (0 : ℚ) < (n : ℚ) / d := by
    have hnq : (0 : ℚ) < n := by exact_mod_cast hn
    have hdq : (0 : ℚ) < d := by exact_mod_cast hd
    positivity
  have hlow : (2 : ℚ) ^ leadingBit n d ≤ (n : ℚ) / d := by
    rw [leadingBit_eq_log hn hd]
    exact Int.zpow_log_le_self one_lt_two hq
  have hhigh : (n : ℚ) / d < 2 ^ (leadingBit n d + 1) := by
    rw [leadingBit_eq_log hn hd]
    exact Int.lt_zpow_succ_log_self one_lt_two _
  generalize hbit : leadingBit n d = bit at hlow hhigh
  simp only [nearestRank, hbit, Nat.pow_eq]
  -- only where the leading bit is the last one that a finite number can have, rounding matters
  rcases lt_trichotomy bit 1023 with hless | rfl | hmore
  · have hbelow : (n : ℚ) / d < overflow := by
      calc (n : ℚ) / d < 2 ^ (bit + 1) := hhigh
        _ ≤ 2 ^ ((1023 : Nat) : Int) := zpow_le_zpow_right₀ one_le_two (by omega)
        _ = 2 ^ 1023 := zpow_natCast ..
        _ < overflow := two_pow_lt_overflow
    have hfinite := nearestRank_lt (n := n) (max (bit - 52) (-1074)) hd (by omega)
      (hhigh.le.trans (zpow_le_zpow_right₀ one_le_two (by omega)))
    exact iff_of_false hfinite.not_ge hbelow.not_ge
  · have hunit : max ((1023 : Int) - 52) (-1074) = 971 := by norm_num
    generalize max ((1023 : Int) - 52) (-1074) = unit at hunit
    exact le_nearestRank_iff_of_last hunit hd
  · have habove : overflow ≤ (n : ℚ) / d := by
      calc overflow ≤ 2 ^ 1024 := overflow_lt_two_pow.le
        _ = 2 ^ ((1024 : Nat) : Int) := (zpow_natCast ..).symm
        _ ≤ 2 ^ bit := zpow_le_zpow_right₀ one_le_two (by omega)
        _ ≤ (n : ℚ) / d := hlow
    have hunit : max (bit - 52) (-1074) = bit - 52 := by omega
    rw [hunit]
    exact iff_of_true (le_nearestRank hd (by omega) (by simpa using hlow)) habove

end Rank

/-! ## Reading decimals -/

theorem ofRank_eq_infinity_iff {negative sign : Bool} {rank : Nat} :
    ofRank negative rank = .infinity sign ↔ negative = sign ∧ 2047 * Nat.pow 2 52 ≤ rank := by
  unfold ofRank
  split
  · rename_i hrank
    simp [Nat.not_le.mpr hrank]
  · rename_i hrank
    simp [Nat.not_lt.mp hrank]

theorem ofRank_ne_nan (negative : Bool) (rank mark : Nat) : ofRank negative rank ≠ .nan mark := by
  unfold ofRank
  split <;> simp

/-- No digits are read as an undefined value. -/
theorem ofDecimal_ne_nan (d : Decimal) (mark : Nat) : ofDecimal d ≠ .nan mark := by
  unfold ofDecimal
  split
  · exact ofRank_ne_nan _ _ mark
  · split
    · simp
    · split
      · exact ofRank_ne_nan _ _ mark
      · exact ofRank_ne_nan _ _ mark

/-- **Exactly the decimals that are too great are read as an infinity**: those from half a unit
beyond the greatest finite number on. -/
theorem ofDecimal_eq_infinity_iff {d : Decimal} {negative : Bool} :
    ofDecimal d = .infinity negative ↔ d.negative = negative ∧ overflow ≤ d.magnitude := by
  have hzero (negative' : Bool) : zero negative' ≠ .infinity negative := by
    simp [zero, ofRank]
  unfold ofDecimal
  split
  · rename_i hcoefficient
    have hmagnitude : d.magnitude = 0 := by simp [Decimal.magnitude, hcoefficient]
    exact iff_of_false (hzero _) fun h =>
      (h.2.trans hmagnitude.le).not_gt (one_pos.trans one_lt_overflow)
  · rename_i hcoefficient
    have hd : 0 < d.coefficient := Nat.pos_of_ne_zero hcoefficient
    split
    · rename_i hgreat
      have habove : overflow ≤ d.magnitude := by
        calc overflow ≤ 2 ^ 1024 := overflow_lt_two_pow.le
          _ ≤ 10 ^ 311 := two_pow_le_ten_pow_of_last
          _ = 10 ^ ((311 : Nat) : Int) := (zpow_natCast ..).symm
          _ ≤ 10 ^ d.adjusted := zpow_le_zpow_right₀ (by norm_num) (by omega)
          _ ≤ d.magnitude := Decimal.zpow_adjusted_le hd
      simp [habove]
    · split
      · rename_i hsmall
        have hbelow : d.magnitude < overflow := by
          calc d.magnitude < 10 ^ (d.adjusted + 1) := Decimal.magnitude_lt_zpow hd
            _ ≤ 10 ^ (0 : Int) := zpow_le_zpow_right₀ (by norm_num) (by omega)
            _ = 1 := zpow_zero _
            _ < overflow := one_lt_overflow
        exact iff_of_false (hzero _) fun h => h.2.not_gt hbelow
      · have hcoefficient : 0 < d.coefficient * 10 ^ d.exponent.toNat := by positivity
        rw [ofRank_eq_infinity_iff, Decimal.magnitude_eq_div,
          ← le_nearestRank_iff hcoefficient (by positivity)]
        rfl

end Binary64

end JsonDecoding
