import CompositeIndex.Proofs.Decimal.Canonical

/-!
# The nearest double

Rounding leads to the double that is nearest to a number, and to the one with an even mantissa if
there are two. Products and quotients are computed exactly, up to a bit for what is not kept of
them, and are then rounded once.
-/

namespace CompositeIndex
namespace Double

open Float.Model Float.Model.UnpackedFloat
open Decimal (isNegative)

/-! ## What an extended mantissa keeps -/

/-- The mantissa and the bit behind it are the first bits of the number, and the last bit says
whether there are any others. -/
structure Encloses (extended : ExtendedMantissa) (number : ℚ) : Prop where
  lower : (halves extended : ℚ) ≤ 2 * number
  upper : 2 * number < halves extended + 1
  exact_iff : extended.stickyBit = false ↔ 2 * number = halves extended

theorem encloses_exact (mantissa : Nat) :
    Encloses (.ofMantissaAndAccuracy mantissa .exact) mantissa := by
  have kept : halves (.ofMantissaAndAccuracy mantissa .exact) = 2 * mantissa := rfl
  refine ⟨?_, ?_, ?_⟩
  · rw [kept]
    push_cast
    exact le_rfl
  · rw [kept]
    push_cast
    linarith
  · rw [kept]
    refine iff_of_true rfl ?_
    push_cast
    rfl

theorem stickyBit_quotient_iff (dividend : Nat) {divisor : Nat} (positive : 0 < divisor) :
    (ExtendedMantissa.ofMantissaAndAccuracy (dividend / divisor)
      (accuracyOfFraction (dividend % divisor) divisor)).stickyBit = false ↔
      divisor ∣ 2 * dividend := by
  have small := Nat.mod_lt dividend positive
  have split : divisor ∣ 2 * dividend ↔ divisor ∣ 2 * (dividend % divisor) := by
    conv_lhs => rw [← Nat.div_add_mod dividend divisor, Nat.mul_add, Nat.mul_left_comm]
    exact (Nat.dvd_add_iff_right (Nat.dvd_mul_right ..)).symm
  rw [split]
  unfold accuracyOfFraction ExtendedMantissa.ofMantissaAndAccuracy
  by_cases whole : dividend % divisor = 0
  · simp [whole]
  · rw [if_neg whole]
    rcases Nat.lt_trichotomy (2 * (dividend % divisor)) divisor with less | equal | greater
    · rw [Nat.compare_eq_lt.mpr less]
      exact iff_of_false nofun (Nat.not_dvd_of_pos_of_lt (by omega) less)
    · rw [Nat.compare_eq_eq.mpr equal, equal]
      exact iff_of_true rfl (Nat.dvd_refl divisor)
    · rw [Nat.compare_eq_gt.mpr greater]
      refine iff_of_false nofun fun divides => ?_
      obtain ⟨count, isCount⟩ := divides
      rcases Nat.lt_or_ge count 2 with few | many
      · have one : divisor * count ≤ divisor * 1 := Nat.mul_le_mul_left _ (by omega)
        omega
      · have two : divisor * 2 ≤ divisor * count := Nat.mul_le_mul_left _ many
        omega

theorem encloses_quotient (dividend : Nat) {divisor : Nat} (positive : 0 < divisor) :
    Encloses (.ofMantissaAndAccuracy (dividend / divisor)
      (accuracyOfFraction (dividend % divisor) divisor)) ((dividend : ℚ) / divisor) := by
  have kept := halves_quotient dividend positive
  have sticky := stickyBit_quotient_iff dividend positive
  have divides : (0 : ℚ) < divisor := by exact_mod_cast positive
  have same : 2 * ((dividend : ℚ) / divisor) = (2 * dividend : Nat) / divisor := by
    push_cast
    ring
  generalize 2 * dividend = doubled at kept sticky same
  refine ⟨?_, ?_, ?_⟩
  · rw [kept, same, le_div_iff₀ divides]
    exact_mod_cast Nat.div_mul_le_self doubled divisor
  · rw [kept, same, div_lt_iff₀ divides]
    have bound := @Nat.lt_div_mul_add doubled _ positive
    rw [← Nat.succ_mul] at bound
    exact_mod_cast bound
  · rw [kept, same, sticky, div_eq_iff divides.ne', Nat.dvd_iff_div_mul_eq, eq_comm]
    norm_cast

section

variable {extended : ExtendedMantissa} {number : ℚ}

theorem Encloses.shiftRightOne (encloses : Encloses extended number) :
    Encloses extended.shiftRightOne (number / 2) := by
  obtain ⟨lower, upper, exact_iff⟩ := encloses
  have kept := halves_shiftRightOne extended
  have double : 2 * (number / 2) = number := by ring
  have even_iff : extended.roundBit = false ↔ halves extended % 2 = 0 := by
    unfold halves
    cases extended.roundBit <;> simp
  have split := Nat.div_add_mod (halves extended) 2
  rw [← kept] at split
  refine ⟨?_, ?_, ?_⟩
  · have bound : 2 * halves extended.shiftRightOne ≤ halves extended := by omega
    have castBound : 2 * (halves extended.shiftRightOne : ℚ) ≤ halves extended := by
      exact_mod_cast bound
    linarith
  · have bound : halves extended ≤ 2 * halves extended.shiftRightOne + 1 := by omega
    have castBound : (halves extended : ℚ) ≤ 2 * halves extended.shiftRightOne + 1 := by
      exact_mod_cast bound
    linarith
  · change (extended.roundBit || extended.stickyBit) = false ↔ _
    rw [Bool.or_eq_false_iff, even_iff, exact_iff, double]
    constructor
    · rintro ⟨even, exact⟩
      have castSplit : (halves extended : ℚ) = 2 * halves extended.shiftRightOne := by
        exact_mod_cast (by omega : halves extended = 2 * halves extended.shiftRightOne)
      linarith
    · intro exact
      rw [exact] at upper lower ⊢
      norm_cast at upper lower ⊢
      omega

theorem Encloses.shiftRight (encloses : Encloses extended number) (count : Nat) :
    Encloses (extended >>> count) (number / 2 ^ count) := by
  change Encloses (count.repeat ExtendedMantissa.shiftRightOne extended) _
  induction count with
  | zero => simpa [Nat.repeat] using encloses
  | succ count inductionHypothesis =>
      rw [Nat.repeat, pow_succ, ← div_div]
      exact inductionHypothesis.shiftRightOne

end

/-! ## Rounding to a whole number -/

/-- The whole number is the nearest one, and it is even if there are two. -/
structure IsRounded (number : ℚ) (whole : Nat) : Prop where
  near : |number - whole| ≤ 1 / 2
  even : |number - whole| = 1 / 2 → whole % 2 = 0

theorem Encloses.isRounded
    {extended : ExtendedMantissa} {number : ℚ}
    (encloses : Encloses extended number) :
    IsRounded number extended.roundedMantissa := by
  obtain ⟨lower, upper, exact_iff⟩ := encloses
  obtain ⟨mantissa, roundBit, stickyBit⟩ := extended
  cases roundBit <;> cases stickyBit
  case false.false =>
    have exact : number = mantissa := by
      have double := exact_iff.mp rfl
      simp only [halves, Bool.toNat_false] at double
      push_cast at double
      linarith
    have rounded : (ExtendedMantissa.mk mantissa false false).roundedMantissa = mantissa := rfl
    rw [rounded, exact]
    exact ⟨by simp, by norm_num⟩
  case false.true =>
    have rounded : (ExtendedMantissa.mk mantissa false true).roundedMantissa = mantissa := rfl
    simp only [halves, Bool.toNat_false] at lower upper
    push_cast at lower upper
    have near : |number - mantissa| < 1 / 2 := by
      rw [abs_lt]
      constructor <;> linarith
    rw [rounded]
    exact ⟨near.le, fun tie => absurd tie near.ne⟩
  case true.false =>
    have exact : number = mantissa + 1 / 2 := by
      have double := exact_iff.mp rfl
      simp only [halves, Bool.toNat_true] at double
      push_cast at double
      linarith
    have rounded : (ExtendedMantissa.mk mantissa true false).roundedMantissa =
        mantissa + mantissa % 2 := rfl
    rw [rounded, exact]
    rcases Nat.mod_two_eq_zero_or_one mantissa with even | odd
    · rw [even]
      exact ⟨by norm_num, fun _ => by omega⟩
    · rw [odd]
      exact ⟨by norm_num, fun _ => by omega⟩
  case true.true =>
    have rounded : (ExtendedMantissa.mk mantissa true true).roundedMantissa = mantissa + 1 := rfl
    have notExact : 2 * number ≠ halves ⟨mantissa, true, true⟩ :=
      fun exact => Bool.noConfusion (exact_iff.mpr exact)
    have above := lt_of_le_of_ne lower notExact.symm
    simp only [halves, Bool.toNat_true] at above upper
    push_cast at above upper
    have near : |number - (mantissa + 1 : Nat)| < 1 / 2 := by
      push_cast
      rw [abs_lt]
      constructor <;> linarith
    rw [rounded]
    exact ⟨near.le, fun tie => absurd tie near.ne⟩

section

variable {number : ℚ} {whole : Nat} {other : ℤ}

theorem one_le_abs_sub (different : other ≠ whole) : (1 : ℚ) ≤ |(other : ℚ) - whole| := by
  have apart : 1 ≤ |other - whole| := Int.one_le_abs (sub_ne_zero.mpr different)
  exact_mod_cast apart

theorem IsRounded.le (rounded : IsRounded number whole) (other : ℤ) :
    |number - whole| ≤ |number - other| := by
  rcases eq_or_ne other whole with rfl | different
  · exact le_rfl
  · have apart := one_le_abs_sub different
    have triangle := abs_sub_le (other : ℚ) number whole
    rw [abs_sub_comm (other : ℚ) number] at triangle
    linarith [rounded.near]

/-- Of two whole numbers that are equally near, the rounded one is even and the other one is
odd. -/
theorem IsRounded.parity
    (rounded : IsRounded number whole)
    (different : other ≠ whole)
    (equal : |number - other| = |number - whole|) :
    whole % 2 = 0 ∧ other.natAbs % 2 = 1 := by
  have apart := one_le_abs_sub different
  have triangle := abs_sub_le (other : ℚ) number whole
  rw [abs_sub_comm (other : ℚ) number, equal] at triangle
  have near := rounded.near
  have even := rounded.even (by linarith)
  have one : |(other : ℚ) - whole| = 1 := by linarith
  have oneApart : |other - whole| = 1 := by exact_mod_cast one
  refine ⟨even, ?_⟩
  rcases abs_choice (other - whole) with same | negated
  · omega
  · omega

end

/-! ## Rounding at an exponent -/

/-- The number is rounded to a multiple of a power of two, which leaves a mantissa of at most 53
bits that is as long as it can be. -/
structure RoundsAt (number : ℚ) (exponent : ℤ) (whole : Nat) : Prop where
  rounded : IsRounded (number / 2 ^ exponent) whole
  nonneg : 0 ≤ number
  low : -1074 ≤ exponent
  small : number / 2 ^ exponent < 2 ^ 53
  long : 2 ^ 52 ≤ number / 2 ^ exponent ∨ exponent = -1074

section

variable {number : ℚ} {exponent power mantissa : ℤ} {whole : Nat}

/-- Distances in units of a power of two. -/
theorem abs_sub_mul_two_zpow (number other : ℚ) (exponent : ℤ) :
    |number - other * 2 ^ exponent| = |number / 2 ^ exponent - other| * 2 ^ exponent := by
  have positive : (0 : ℚ) < 2 ^ exponent := zpow_pos two_pos exponent
  rw [← abs_of_pos positive, ← abs_mul, abs_of_pos positive, sub_mul,
    div_mul_cancel₀ _ positive.ne']

/-- A mantissa of at most 53 bits is below 52 bits at a higher exponent. -/
theorem mul_two_zpow_lt
    (small : mantissa.natAbs < 2 ^ 53)
    (less : power < exponent) :
    (mantissa : ℚ) * 2 ^ power < 2 ^ 52 * 2 ^ exponent := by
  have bound : mantissa < 2 ^ 53 := by omega
  have castBound : (mantissa : ℚ) < 2 ^ 53 := by exact_mod_cast bound
  calc (mantissa : ℚ) * 2 ^ power
      < 2 ^ 53 * 2 ^ power := mul_lt_mul_of_pos_right castBound (zpow_pos two_pos power)
    _ = 2 ^ 52 * 2 ^ (power + 1) := by
        rw [zpow_add_one₀ two_ne_zero]
        ring
    _ ≤ 2 ^ 52 * 2 ^ exponent :=
        mul_le_mul_of_nonneg_left (zpow_le_zpow_right₀ one_le_two less) (by positivity)

/-- A double either is a multiple of the power of two at which the number is rounded, or it is
further away than the rounded number. -/
theorem RoundsAt.multiple_or_further
    (rounds : RoundsAt number exponent whole)
    (small : mantissa.natAbs < 2 ^ 53)
    (low : -1074 ≤ power) :
    (∃ other : ℤ, (mantissa : ℚ) * 2 ^ power = other * 2 ^ exponent ∧
        (other.natAbs % 2 = 1 → mantissa.natAbs % 2 = 1)) ∨
      |number - whole * 2 ^ exponent| < |number - mantissa * 2 ^ power| := by
  have positive : (0 : ℚ) < 2 ^ exponent := zpow_pos two_pos exponent
  rcases Int.lt_or_le power exponent with less | above
  · refine .inr ?_
    have long : 2 ^ 52 ≤ number / 2 ^ exponent := rounds.long.resolve_right (by omega)
    have below := mul_two_zpow_lt small less
    have near := rounds.rounded.le (2 ^ 52)
    push_cast at near
    rw [le_div_iff₀ positive] at long
    rw [abs_of_nonneg (by linarith : 0 ≤ number - mantissa * 2 ^ power)]
    calc |number - whole * 2 ^ exponent|
        ≤ |number - 2 ^ 52 * 2 ^ exponent| := by
          rw [abs_sub_mul_two_zpow, abs_sub_mul_two_zpow]
          exact mul_le_mul_of_nonneg_right near positive.le
      _ = number - 2 ^ 52 * 2 ^ exponent := abs_of_nonneg (by linarith)
      _ < number - mantissa * 2 ^ power := by linarith
  · refine .inl ⟨mantissa * 2 ^ (power - exponent).toNat, ?_, ?_⟩
    · have isPower : power = exponent + (power - exponent).toNat := by omega
      conv_lhs => rw [isPower, zpow_add₀ two_ne_zero, zpow_natCast]
      push_cast
      ring
    · intro odd
      rw [Int.natAbs_mul] at odd
      exact Nat.odd_iff.mp (Nat.odd_mul.mp (Nat.odd_iff.mpr odd)).1

/-- No mantissa of at most 53 bits is nearer to the number than the rounded one. -/
theorem RoundsAt.le
    (rounds : RoundsAt number exponent whole)
    (small : mantissa.natAbs < 2 ^ 53)
    (low : -1074 ≤ power) :
    |number - whole * 2 ^ exponent| ≤ |number - mantissa * 2 ^ power| := by
  rcases rounds.multiple_or_further small low with ⟨other, isMultiple, -⟩ | further
  · rw [isMultiple, abs_sub_mul_two_zpow, abs_sub_mul_two_zpow]
    exact mul_le_mul_of_nonneg_right (rounds.rounded.le other) (zpow_pos two_pos exponent).le
  · exact further.le

/-- Of two mantissas that are equally near, the rounded one is even and the other one is odd. -/
theorem RoundsAt.parity
    (rounds : RoundsAt number exponent whole)
    (small : mantissa.natAbs < 2 ^ 53)
    (low : -1074 ≤ power)
    (different : (mantissa : ℚ) * 2 ^ power ≠ whole * 2 ^ exponent)
    (equal : |number - mantissa * 2 ^ power| = |number - whole * 2 ^ exponent|) :
    whole % 2 = 0 ∧ mantissa.natAbs % 2 = 1 := by
  rcases rounds.multiple_or_further small low with ⟨other, isMultiple, odd⟩ | further
  · rw [isMultiple] at different equal
    rw [abs_sub_mul_two_zpow, abs_sub_mul_two_zpow] at equal
    have sameDistance := mul_right_cancel₀ (zpow_pos two_pos exponent).ne' equal
    have otherDifferent : other ≠ whole := by
      rintro rfl
      exact different rfl
    obtain ⟨even, otherOdd⟩ := rounds.rounded.parity otherDifferent sameDistance
    exact ⟨even, odd otherOdd⟩
  · exact absurd equal further.ne'

end

section

variable {number : ℚ} {mantissa : Nat} {exponent : ℤ} {accuracy : Accuracy}

/-- What is enclosed is rounded at the exponent that its mantissa is shifted to. -/
theorem Encloses.roundsAt
    (encloses : Encloses (.ofMantissaAndAccuracy mantissa accuracy) (number / 2 ^ exponent))
    (below : exponent ≤ target mantissa exponent) :
    RoundsAt number (target mantissa exponent)
      (shifted mantissa exponent accuracy).roundedMantissa := by
  set count := (target mantissa exponent - exponent).toNat with isCount
  have reached : target mantissa exponent = exponent + count := by omega
  have scaled : number / 2 ^ target mantissa exponent = number / 2 ^ exponent / 2 ^ count := by
    rw [reached, zpow_add₀ two_ne_zero, zpow_natCast, div_div]
  have enclosed : Encloses (shifted mantissa exponent accuracy)
      (number / 2 ^ target mantissa exponent) := by
    rw [scaled]
    exact encloses.shiftRight count
  have isMantissa := mantissa_shifted mantissa exponent accuracy
  have bound := mantissa_shifted_lt mantissa exponent accuracy
  have kept := mantissa_eq (shifted mantissa exponent accuracy)
  refine ⟨enclosed.isRounded, ?_, ?_, ?_, ?_⟩
  · have nonneg : 0 ≤ number / 2 ^ exponent := by
      have lower := encloses.lower
      have halvesNonneg : (0 : ℚ) ≤ halves (.ofMantissaAndAccuracy mantissa accuracy) :=
        Nat.cast_nonneg _
      linarith
    have positive : (0 : ℚ) < 2 ^ exponent := zpow_pos two_pos exponent
    rwa [le_div_iff₀ positive, zero_mul] at nonneg
  · rw [target_eq]
    exact le_max_right _ _
  · have upper := enclosed.upper
    have halvesBound : halves (shifted mantissa exponent accuracy) + 1 ≤ 2 * 2 ^ 53 := by omega
    have castBound : (halves (shifted mantissa exponent accuracy) : ℚ) + 1 ≤ 2 * 2 ^ 53 := by
      exact_mod_cast halvesBound
    linarith
  · by_cases least : target mantissa exponent = -1074
    · exact .inr least
    · have isLog : mantissa.log2 = 52 + count := by
        have isTarget := target_eq mantissa exponent
        omega
      have notZero : mantissa ≠ 0 := by
        rintro rfl
        rw [Nat.log2_zero] at isLog
        omega
      have long : 2 ^ 52 ≤ (shifted mantissa exponent accuracy).mantissa := by
        rw [isMantissa, Nat.le_div_iff_mul_le (Nat.two_pow_pos _), ← Nat.pow_add, ← isCount,
          ← isLog]
        exact Nat.log2_self_le notZero
      have halvesLong : 2 * 2 ^ 52 ≤ halves (shifted mantissa exponent accuracy) := by omega
      have castLong : 2 * 2 ^ 52 ≤ (halves (shifted mantissa exponent accuracy) : ℚ) := by
        exact_mod_cast halvesLong
      refine .inl ?_
      linarith [enclosed.lower]

end

section

variable {number : ℚ} {exponent : ℤ} {whole : Nat}

theorem RoundsAt.whole_le (rounds : RoundsAt number exponent whole) : whole ≤ 2 ^ 53 := by
  have near := (abs_le.mp rounds.rounded.near).1
  have small := rounds.small
  have below : (whole : ℚ) < 2 ^ 53 + 1 := by linarith
  exact Nat.lt_succ_iff.mp (by exact_mod_cast below)

theorem RoundsAt.whole_long (rounds : RoundsAt number exponent whole) :
    2 ^ 52 ≤ whole ∨ exponent = -1074 := by
  refine rounds.long.imp_left fun long => ?_
  have near := (abs_le.mp rounds.rounded.near).2
  have above : 2 ^ 52 < (whole : ℚ) + 1 := by linarith
  exact Nat.lt_succ_iff.mp (by exact_mod_cast above)

/-- The mantissa is full exactly if the number is at least half way to it. -/
theorem RoundsAt.whole_eq_iff (rounds : RoundsAt number exponent whole) :
    whole = 2 ^ 53 ↔ 2 ^ 53 - 1 / 2 ≤ number / 2 ^ exponent := by
  have near := abs_le.mp rounds.rounded.near
  constructor
  · rintro rfl
    push_cast at near
    linarith [near.1]
  · intro above
    have atLeast : 2 ^ 53 < (whole : ℚ) + 2 := by linarith [near.2]
    have few : 2 ^ 53 < whole + 2 := by exact_mod_cast atLeast
    by_contra notFull
    have isLast : whole = 2 ^ 53 - 1 := by
      have most := rounds.whole_le
      omega
    subst isLast
    push_cast at near
    have tie : number / 2 ^ exponent - (2 ^ 53 - 1 : Nat) = 1 / 2 := by
      push_cast
      linarith [near.2]
    have even := rounds.rounded.even (by rw [tie]; norm_num)
    omega

/-- What is rounded is below half a step behind the greatest mantissa at an exponent if its own
exponent is lower, or if it is not rounded up to a full mantissa there. -/
theorem RoundsAt.lt_iff
    (rounds : RoundsAt number exponent whole)
    {top : ℤ}
    (normal : -1074 < top) :
    number < (2 ^ 53 - 1 / 2) * 2 ^ top ↔ exponent < top ∨ exponent = top ∧ whole ≠ 2 ^ 53 := by
  have positive : (0 : ℚ) < 2 ^ exponent := zpow_pos two_pos exponent
  rcases Int.lt_trichotomy exponent top with less | equal | greater
  · refine iff_of_true ?_ (.inl less)
    have small := rounds.small
    rw [div_lt_iff₀ positive] at small
    have next : (2 : ℚ) ^ exponent * 2 ≤ 2 ^ top := by
      rw [← zpow_add_one₀ two_ne_zero]
      exact zpow_le_zpow_right₀ one_le_two less
    nlinarith
  · subst equal
    rw [← div_lt_iff₀ positive, ← not_le, ← rounds.whole_eq_iff]
    omega
  · have long := rounds.long.resolve_right (by omega)
    rw [le_div_iff₀ positive] at long
    refine iff_of_false (not_lt.mpr ?_) (by omega)
    have next : (2 : ℚ) ^ top * 2 ≤ 2 ^ exponent := by
      rw [← zpow_add_one₀ two_ne_zero]
      exact zpow_le_zpow_right₀ one_le_two greater
    have topPositive : (0 : ℚ) < 2 ^ top := zpow_pos two_pos top
    nlinarith

theorem cast_limitAt (power : Nat) : (limitAt power : ℚ) = (2 ^ 53 - 1 / 2) * 2 ^ (power + 1) := by
  unfold limitAt
  push_cast
  ring

theorem mul_lt_limit_iff (number : ℚ) :
    number * 2 ^ 1074 < limit ↔ number < (2 ^ 53 - 1 / 2) * 2 ^ (971 : ℤ) := by
  have isLimit : (limit : ℚ) = (2 ^ 53 - 1 / 2) * 2 ^ (971 : ℤ) * 2 ^ 1074 := by
    rw [zpow_ofNat, mul_assoc, ← pow_add]
    exact cast_limitAt 2044
  rw [isLimit]
  exact mul_lt_mul_iff_left₀ (by positivity)

/-- What is rounded can be packed if the number is below the limit. -/
theorem RoundsAt.fits_iff (rounds : RoundsAt number exponent whole) (sign : Sign) :
    Fits (carried sign whole exponent) ↔ number * 2 ^ 1074 < limit := by
  rw [fits_carried_iff, mul_lt_limit_iff, rounds.lt_iff (by decide)]
  have long := rounds.whole_long
  omega

theorem RoundsAt.isCanonical
    (rounds : RoundsAt number exponent whole)
    {sign : Sign}
    (fits : Fits (carried sign whole exponent)) :
    IsCanonical (carried sign whole exponent) := by
  have bound := rounds.whole_le
  have low := rounds.low
  have long := rounds.whole_long
  rw [fits_carried_iff] at fits
  have carries := carries_carried sign whole exponent
  generalize carried sign whole exponent = number at carries ⊢
  cases carries with
  | empty => exact .zero sign
  | kept positive => exact .finite positive (by omega) low (by omega) long
  | full => exact .finite _ (by decide) (by omega) (by omega) (.inl le_rfl)

end

/-! ## The nearest double -/

/-- No finite double is nearer to the number, and if another one is equally near, the last bit of
the mantissa is zero. -/
structure IsClosest (number : ℚ) (value : Float) : Prop where
  isFinite : value.isFinite = true
  nearest : ∀ other : Float, other.isFinite = true →
    |number - toRat value| ≤ |number - toRat other|
  even : ∀ other : Float, other.isFinite = true → toRat other ≠ toRat value →
    |number - toRat other| = |number - toRat value| → value.toBits.toNat % 2 = 0

/-- The double that a number is rounded to. From a limit on, which lies half way between the
greatest double and the next power of two, it is infinite. -/
inductive IsNearest (number : ℚ) (value : Float) : Prop
  | finite
      (below : |number| * 2 ^ 1074 < limit)
      (closest : IsClosest number value)
  | infinite
      (above : limit ≤ |number| * 2 ^ 1074)
      (isInfinite : value.isInf = true)

/-- The double that a rounded mantissa at an exponent makes. -/
def ofRounded (whole : Nat) (exponent : ℤ) : Float :=
  .ofModel (Float.Model.pack (carried .positive whole exponent))

section

variable {number : ℚ} {exponent : ℤ} {whole : Nat}

theorem RoundsAt.toRat_ofRounded
    (rounds : RoundsAt number exponent whole)
    (fits : Fits (carried .positive whole exponent)) :
    toRat (ofRounded whole exponent) = whole * 2 ^ exponent := by
  have unpacked := unpack_pack (rounds.isCanonical fits)
  change (unitsOf (Float.Model.pack (carried .positive whole exponent)).unpack : ℚ) / 2 ^ 1074 = _
  rw [unpacked]
  have low := rounds.low
  have carries := carries_carried .positive whole exponent
  generalize carried .positive whole exponent = number at carries ⊢
  cases carries with
  | empty isZero => rw [isZero, unitsOf_zero, Int.cast_zero, zero_div, Nat.cast_zero, zero_mul]
  | kept positive => exact unitsOf_div .positive positive low
  | full isFull positive =>
      rw [unitsOf_div .positive positive (by omega), isFull, zpow_add_one₀ two_ne_zero]
      simp only [Sign.apply]
      push_cast
      ring

theorem isFinite_ofRounded_iff :
    (ofRounded whole exponent).isFinite = true ↔ Fits (carried .positive whole exponent) :=
  isFinite_pack_iff _

theorem carried_ne_notANumber (sign : Sign) (whole : Nat) (exponent : ℤ) :
    carried sign whole exponent ≠ .notANumber := by
  have carries := carries_carried sign whole exponent
  generalize carried sign whole exponent = number at carries ⊢
  cases carries <;> exact nofun

theorem signOf_carried (sign : Sign) (whole : Nat) (exponent : ℤ) :
    signOf (carried sign whole exponent) = sign := by
  have carries := carries_carried sign whole exponent
  generalize carried sign whole exponent = number at carries ⊢
  cases carries <;> rfl

theorem isNaN_ofRounded : (ofRounded whole exponent).isNaN = false :=
  isNaN_pack_of_ne (carried_ne_notANumber _ _ _)

theorem isNegative_ofRounded : isNegative (ofRounded whole exponent) = false := by
  have isSign := isNegative_pack_iff (carried_ne_notANumber .positive whole exponent)
  rw [signOf_carried] at isSign
  refine Bool.eq_false_iff.mpr fun marked => ?_
  cases isSign.mp marked

/-- The last bit of an even mantissa is zero. -/
theorem RoundsAt.toBits_ofRounded
    (rounds : RoundsAt number exponent whole)
    (fits : Fits (carried .positive whole exponent))
    (even : whole % 2 = 0) :
    (ofRounded whole exponent).toBits.toNat % 2 = 0 := by
  have unpacked := unpack_pack (rounds.isCanonical fits)
  rw [toBits_mod_two (isFinite_ofRounded_iff.mpr fits)]
  change mantissaOf (Float.Model.pack (carried .positive whole exponent)).unpack % 2 = 0
  rw [unpacked]
  have carries := carries_carried .positive whole exponent
  generalize carried .positive whole exponent = number at carries ⊢
  cases carries with
  | empty => rfl
  | kept => exact even
  | full => exact Nat.mod_eq_zero_of_dvd (dvd_pow_self 2 (by decide))

theorem isInf_of_not_isFinite
    {value : Float}
    (isNumber : value.isNaN = false)
    (notFinite : ¬value.isFinite = true) :
    value.isInf = true := by
  obtain ⟨sign, unpacked⟩ := exists_infinity isNumber notFinite
  change value.toModel.unpack.isInf = true
  rw [unpacked]
  rfl

/-- Rounding leads to the nearest double. -/
theorem RoundsAt.isNearest (rounds : RoundsAt number exponent whole) :
    IsNearest number (ofRounded whole exponent) := by
  have fits_iff := rounds.fits_iff .positive
  rw [← abs_of_nonneg rounds.nonneg] at fits_iff
  by_cases fits : Fits (carried .positive whole exponent)
  · have isRat := rounds.toRat_ofRounded fits
    refine .finite (fits_iff.mp fits) ⟨isFinite_ofRounded_iff.mpr fits, ?_, ?_⟩
    · intro other otherFinite
      obtain ⟨mantissa, power, small, low, otherRat, -⟩ := exists_toRat_eq otherFinite
      rw [isRat, otherRat]
      exact rounds.le small low
    · intro other otherFinite different equal
      obtain ⟨mantissa, power, small, low, otherRat, -⟩ := exists_toRat_eq otherFinite
      rw [isRat, otherRat] at different equal
      exact rounds.toBits_ofRounded fits (rounds.parity small low different equal).1
  · exact .infinite (not_lt.mp (mt fits_iff.mpr fits))
      (isInf_of_not_isFinite isNaN_ofRounded (mt isFinite_ofRounded_iff.mp fits))

/-- What is a multiple of the power of two that it is rounded at is kept. -/
theorem RoundsAt.exact
    (rounds : RoundsAt number exponent whole)
    {other : ℤ}
    (isMultiple : number = other * 2 ^ exponent) :
    whole * 2 ^ exponent = number := by
  have positive : (0 : ℚ) < 2 ^ exponent := zpow_pos two_pos exponent
  have near := rounds.rounded.le other
  rw [(div_eq_iff positive.ne').mpr isMultiple, sub_self, abs_zero, abs_nonpos_iff, sub_eq_zero]
    at near
  rw [isMultiple, near]

/-- Every closest double has the rounded value: another one would be odd. -/
theorem RoundsAt.toRat_eq
    (rounds : RoundsAt number exponent whole)
    (below : number * 2 ^ 1074 < limit)
    {value : Float}
    (closest : IsClosest number value) :
    toRat value = whole * 2 ^ exponent := by
  have fits := (rounds.fits_iff .positive).mpr below
  have isRat := rounds.toRat_ofRounded fits
  have finite := isFinite_ofRounded_iff.mpr fits
  obtain ⟨mantissa, power, small, low, valueRat, lastBit⟩ := exists_toRat_eq closest.isFinite
  have equal : |number - mantissa * 2 ^ power| = |number - whole * 2 ^ exponent| := by
    have atMost := closest.nearest _ finite
    rw [isRat, valueRat] at atMost
    exact le_antisymm atMost (rounds.le small low)
  by_contra different
  have even := closest.even _ finite
  rw [isRat, valueRat] at even
  rw [valueRat] at different
  have isEven := even (Ne.symm different) equal.symm
  have isOdd := (rounds.parity small low different equal).2
  omega

end

/-! ## Quotients and products -/

section

variable {first second : Nat}

/-- A quotient is rounded at some exponent. -/
theorem exists_div_eq_carried
    (up down : ℤ)
    (positive : 0 < first)
    (otherPositive : 0 < second) :
    ∃ exponent whole,
      RoundsAt ((first * 2 ^ up : ℚ) / (second * 2 ^ down)) exponent whole ∧
        UnpackedFloat.div Format.binary64 (.finite .positive first up positive)
          (.finite .positive second down otherPositive) = carried .positive whole exponent := by
  have core := divCore_eq first up second down
  have below := quotientExponent_le_target up down positive otherPositive
  have atMost : quotientExponent first up second down ≤ up - down := min_le_left ..
  generalize quotientExponent first up second down = exponent at core below atMost
  dsimp only at core below
  set scaled := first <<< (up - down - exponent).toNat with isScaled
  have encloses := encloses_quotient scaled otherPositive
  have same : (scaled : ℚ) / second = first * 2 ^ up / (second * 2 ^ down) / 2 ^ exponent := by
    have power : (2 : ℚ) ^ (up - down - exponent).toNat = 2 ^ up / 2 ^ down / 2 ^ exponent := by
      rw [← zpow_natCast, Int.toNat_of_nonneg (by omega), zpow_sub₀ two_ne_zero,
        zpow_sub₀ two_ne_zero]
    rw [isScaled, Nat.shiftLeft_eq]
    push_cast
    rw [power]
    field_simp
  rw [same] at encloses
  refine ⟨_, _, encloses.roundsAt below, ?_⟩
  unfold UnpackedFloat.div
  simp only [core]
  exact roundWithAccuracy_eq_carried _ _ below

/-- A product of canonical mantissas is not too short. -/
theorem IsCanonical.mul_long
    {sign otherSign : Sign} {up down : ℤ} {positive : 0 < first} {otherPositive : 0 < second}
    (canonical : IsCanonical (.finite sign first up positive))
    (otherCanonical : IsCanonical (.finite otherSign second down otherPositive)) :
    2 ^ 52 ≤ first * second ∨ up + down ≤ -1074 := by
  cases canonical with
  | finite _ small low high long =>
      cases otherCanonical with
      | finite _ otherSmall otherLow otherHigh otherLong =>
          rcases long with leading | least
          · exact .inl (Nat.le_trans leading (Nat.le_mul_of_pos_right first otherPositive))
          · rcases otherLong with otherLeading | otherLeast
            · exact .inl (Nat.le_trans otherLeading (Nat.le_mul_of_pos_left second positive))
            · exact .inr (by omega)

/-- A product that is not too short is rounded at some exponent. -/
theorem exists_mul_eq_carried
    (sign otherSign : Sign)
    (up down : ℤ)
    (positive : 0 < first)
    (otherPositive : 0 < second)
    (long : 2 ^ 52 ≤ first * second ∨ up + down ≤ -1074) :
    ∃ exponent whole,
      RoundsAt ((first * 2 ^ up : ℚ) * (second * 2 ^ down)) exponent whole ∧
        UnpackedFloat.mul Format.binary64 (.finite sign first up positive)
          (.finite otherSign second down otherPositive) =
            carried (sign * otherSign) whole exponent := by
  have below : up + down ≤ target (first * second) (up + down) := by
    rw [target_eq]
    rcases long with leading | low
    · have isLog := (Nat.le_log2 (Nat.mul_pos positive otherPositive).ne').mpr leading
      omega
    · omega
  have encloses := encloses_exact (first * second)
  have same : ((first * second : Nat) : ℚ) =
      first * 2 ^ up * (second * 2 ^ down) / 2 ^ (up + down) := by
    rw [zpow_add₀ two_ne_zero]
    push_cast
    field_simp
  rw [same] at encloses
  exact ⟨_, _, encloses.roundsAt below, roundWithAccuracy_eq_carried _ _ below⟩

/-- A mantissa at an exponent is rounded at the exponent that it is shifted to. -/
theorem exists_round_eq_carried
    (sign : Sign)
    {mantissa : Nat}
    (positive : 0 < mantissa)
    (exponent : ℤ) :
    ∃ whole, RoundsAt (mantissa * 2 ^ exponent) (target mantissa exponent) whole ∧
      UnpackedFloat.round Format.binary64 sign mantissa exponent =
        carried sign whole (target mantissa exponent) := by
  set count := (exponent - target mantissa exponent).toNat with isCount
  have isTarget := target_eq mantissa exponent
  have sameTarget := target_shiftLeft positive exponent count
  have below : exponent - count ≤ target (mantissa <<< count) (exponent - count) := by omega
  have encloses := encloses_exact (mantissa <<< count)
  have same : ((mantissa <<< count : Nat) : ℚ) =
      mantissa * 2 ^ exponent / 2 ^ (exponent - count) := by
    rw [Nat.shiftLeft_eq, zpow_sub₀ two_ne_zero, zpow_natCast]
    push_cast
    field_simp
  rw [same] at encloses
  have rounds := encloses.roundsAt below
  have isRounded := roundWithAccuracy_eq_carried sign .exact below
  rw [sameTarget] at rounds isRounded
  exact ⟨_, rounds, isRounded⟩

end

section

variable {value other : Float}

/-- The exact product of positive doubles is rounded once. -/
theorem isNearest_mul (above : 0 < toRat value) (otherAbove : 0 < toRat other) :
    IsNearest (toRat value * toRat other) (value * other) ∧
      isNegative (value * other) = false := by
  obtain ⟨first, up, positive, canonical, unpacked, isRat⟩ := exists_finite_of_toRat_pos above
  obtain ⟨second, down, otherPositive, otherCanonical, otherUnpacked, otherRat⟩ :=
    exists_finite_of_toRat_pos otherAbove
  obtain ⟨exponent, whole, rounds, product⟩ :=
    exists_mul_eq_carried .positive .positive up down positive otherPositive
      (canonical.mul_long otherCanonical)
  have isProduct : value * other = ofRounded whole exponent := by
    change Float.ofModel (Float.Model.pack (UnpackedFloat.mul Format.binary64 value.toModel.unpack
      other.toModel.unpack)) = _
    rw [unpacked, otherUnpacked, product]
    rfl
  rw [isProduct, isRat, otherRat]
  exact ⟨rounds.isNearest, isNegative_ofRounded⟩

/-- The exact quotient of positive doubles is rounded once. -/
theorem isNearest_div (above : 0 < toRat value) (otherAbove : 0 < toRat other) :
    IsNearest (toRat value / toRat other) (value / other) ∧
      isNegative (value / other) = false := by
  obtain ⟨first, up, positive, -, unpacked, isRat⟩ := exists_finite_of_toRat_pos above
  obtain ⟨second, down, otherPositive, -, otherUnpacked, otherRat⟩ :=
    exists_finite_of_toRat_pos otherAbove
  obtain ⟨exponent, whole, rounds, quotient⟩ := exists_div_eq_carried up down positive otherPositive
  have isQuotient : value / other = ofRounded whole exponent := by
    change Float.ofModel (Float.Model.pack (UnpackedFloat.div Format.binary64 value.toModel.unpack
      other.toModel.unpack)) = _
    rw [unpacked, otherUnpacked, quotient]
    rfl
  rw [isQuotient, isRat, otherRat]
  exact ⟨rounds.isNearest, isNegative_ofRounded⟩

end

/-! ## There is one nearest double -/

theorem roundsAt_zero : RoundsAt 0 (-1074) 0 := by
  refine ⟨⟨?_, ?_⟩, le_rfl, le_rfl, ?_, .inr rfl⟩ <;> norm_num

theorem exists_roundsAt {number : ℚ} (nonneg : 0 ≤ number) :
    ∃ exponent whole, RoundsAt number exponent whole := by
  rcases nonneg.eq_or_lt with rfl | positive
  · exact ⟨_, _, roundsAt_zero⟩
  · have isNumerator : ((number.num.toNat : ℕ) : ℤ) = number.num :=
      Int.toNat_of_nonneg (Rat.num_nonneg.mpr nonneg)
    have numPositive : 0 < number.num.toNat := by
      have above := Rat.num_pos.mpr positive
      omega
    obtain ⟨exponent, whole, rounds, -⟩ :=
      exists_div_eq_carried 0 0 numPositive number.den_pos
    refine ⟨exponent, whole, ?_⟩
    have same : (number.num.toNat * 2 ^ (0 : ℤ) : ℚ) / (number.den * 2 ^ (0 : ℤ)) = number := by
      have castNumerator : ((number.num.toNat : ℕ) : ℚ) = number.num := by
        exact_mod_cast isNumerator
      rw [zpow_zero, mul_one, mul_one, castNumerator, Rat.num_div_den]
    rwa [same] at rounds

theorem exists_infinity_of_isInf {value : Float} (isInfinite : value.isInf = true) :
    ∃ sign, value.toModel.unpack = .infinity sign := by
  change value.toModel.unpack.isInf = true at isInfinite
  generalize value.toModel.unpack = number at isInfinite
  cases number with
  | infinity sign => exact ⟨sign, rfl⟩
  | _ => cases isInfinite

theorem eq_of_isInf
    {value other : Float}
    (isInfinite : value.isInf = true)
    (otherInfinite : other.isInf = true)
    (sameSign : isNegative value = isNegative other) :
    value = other := by
  obtain ⟨sign, unpacked⟩ := exists_infinity_of_isInf isInfinite
  obtain ⟨otherSign, otherUnpacked⟩ := exists_infinity_of_isInf otherInfinite
  have isNumber : value.isNaN = false := (isNaN_eq_false_iff value).mpr (by rw [unpacked]; nofun)
  have otherNumber : other.isNaN = false :=
    (isNaN_eq_false_iff other).mpr (by rw [otherUnpacked]; nofun)
  have same : sign = otherSign := by
    have signs := isNegative_iff isNumber
    rw [sameSign, isNegative_iff otherNumber, unpacked, otherUnpacked] at signs
    exact (sign_eq_of_iff signs).symm
  exact eq_of_unpack_eq isNumber (by rw [unpacked, otherUnpacked, same])

section

variable {number : ℚ} {value other : Float}

theorem IsClosest.toRat_unique
    (nonneg : 0 ≤ number)
    (below : number * 2 ^ 1074 < limit)
    (closest : IsClosest number value)
    (otherClosest : IsClosest number other) :
    toRat value = toRat other := by
  obtain ⟨exponent, whole, rounds⟩ := exists_roundsAt nonneg
  rw [rounds.toRat_eq below closest, rounds.toRat_eq below otherClosest]

/-- There is only one nearest double with a sign. -/
theorem IsNearest.unique_of_nonneg
    (nonneg : 0 ≤ number)
    (isNearest : IsNearest number value)
    (otherNearest : IsNearest number other)
    (sameSign : isNegative value = isNegative other) :
    value = other := by
  cases isNearest with
  | finite below closest =>
      cases otherNearest with
      | infinite above => exact absurd below (not_lt.mpr above)
      | finite _ otherClosest =>
          rw [abs_of_nonneg nonneg] at below
          exact eq_of_toRat_eq closest.isFinite otherClosest.isFinite
            (closest.toRat_unique nonneg below otherClosest) sameSign
  | infinite above isInfinite =>
      cases otherNearest with
      | finite below => exact absurd below (not_lt.mpr above)
      | infinite _ otherInfinite => exact eq_of_isInf isInfinite otherInfinite sameSign

theorem IsNearest.isNaN (isNearest : IsNearest number value) : value.isNaN = false := by
  cases isNearest with
  | finite below closest => exact isNaN_of_isFinite closest.isFinite
  | infinite above isInfinite =>
      obtain ⟨sign, unpacked⟩ := exists_infinity_of_isInf isInfinite
      exact (isNaN_eq_false_iff value).mpr (by rw [unpacked]; nofun)

theorem IsClosest.neg (closest : IsClosest number value) : IsClosest (-number) (-value) := by
  have isNumber := isNaN_of_isFinite closest.isFinite
  have distance (rat : ℚ) : |-number - -rat| = |number - rat| := by
    rw [← abs_neg, neg_sub_neg, neg_sub]
  have mirrored {other : Float} (finite : other.isFinite = true) :
      |-number - toRat other| = |number - toRat (-other)| := by
    rw [toRat_neg (isNaN_of_isFinite finite), ← distance, neg_neg]
  have negFinite {other : Float} (finite : other.isFinite = true) : (-other).isFinite = true :=
    (isFinite_neg (isNaN_of_isFinite finite)).trans finite
  refine ⟨negFinite closest.isFinite, ?_, ?_⟩
  · intro other finite
    rw [toRat_neg isNumber, distance, mirrored finite]
    exact closest.nearest _ (negFinite finite)
  · intro other finite different equal
    rw [toRat_neg isNumber, distance, mirrored finite] at equal
    rw [toBits_neg closest.isFinite]
    refine closest.even _ (negFinite finite) ?_ equal
    intro same
    rw [toRat_neg (isNaN_of_isFinite finite), neg_eq_iff_eq_neg] at same
    exact different (same.trans (toRat_neg isNumber).symm)

theorem IsNearest.neg (isNearest : IsNearest number value) : IsNearest (-number) (-value) := by
  have isNumber := isNearest.isNaN
  cases isNearest with
  | finite below closest => exact .finite (by rwa [abs_neg]) closest.neg
  | infinite above isInfinite =>
      exact .infinite (by rwa [abs_neg]) ((isInf_neg isNumber).trans isInfinite)

/-- There is only one nearest double with a sign. -/
theorem IsNearest.unique
    (isNearest : IsNearest number value)
    (otherNearest : IsNearest number other)
    (sameSign : isNegative value = isNegative other) :
    value = other := by
  rcases le_total 0 number with nonneg | nonpos
  · exact isNearest.unique_of_nonneg nonneg otherNearest sameSign
  · have isNumber := isNearest.isNaN
    have otherNumber := otherNearest.isNaN
    have same := isNearest.neg.unique_of_nonneg (neg_nonneg.mpr nonpos) otherNearest.neg
      (by rw [isNegative_neg isNumber, isNegative_neg otherNumber, sameSign])
    rw [← neg_neg_of_isNaN isNumber, same, neg_neg_of_isNaN otherNumber]

end

end Double
end CompositeIndex
