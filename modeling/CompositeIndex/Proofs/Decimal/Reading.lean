import CompositeIndex.Decimal.Literal
import CompositeIndex.Proofs.Decimal.Nearest

/-!
# Reading decimals

A decimal is read as the double that is nearest to it. If its digits and the power of ten are
doubles, one operation leads there, and otherwise the power of ten is multiplied or divided by
exactly. Decimals that are far from the doubles are not computed at all.
-/

namespace CompositeIndex
namespace Decimal

open Float.Model Float.Model.UnpackedFloat
open Double

/-- The number that a decimal stands for. -/
def toRat (decimal : Decimal) : ℚ :=
  decimal.digits * 10 ^ decimal.exponent

/-! ## Normal forms -/

theorem toRat_stripZeros (fuel digits : Nat) (exponent : Int) :
    (stripZeros fuel digits exponent).toRat = toRat ⟨digits, exponent⟩ := by
  induction fuel generalizing digits exponent with
  | zero => rfl
  | succ fuel inductionHypothesis =>
      unfold stripZeros
      split
      next divides =>
        have split : digits = 10 * (digits / 10) := by omega
        have castSplit : (digits : ℚ) = 10 * (digits / 10 : Nat) := by exact_mod_cast split
        rw [inductionHypothesis]
        simp only [toRat]
        rw [castSplit, zpow_add_one₀ (by norm_num)]
        ring
      next => rfl

/-- A normal form stands for the same number. -/
theorem toRat_normalize (decimal : Decimal) : decimal.normalize.toRat = decimal.toRat := by
  unfold normalize
  split
  next zero => simp [toRat, zero]
  next => exact toRat_stripZeros _ _ _

/-! ## Digits and powers of ten -/

section

variable {number : Nat}

theorem lt_ten_pow_digitCount (number : Nat) : number < 10 ^ digitCount number :=
  (Nat.length_toDigits_le_iff (by decide) Nat.length_toDigits_pos).mp le_rfl

theorem ten_pow_digitCount_le (positive : 0 < number) : 10 ^ (digitCount number - 1) ≤ number := by
  rcases Nat.eq_zero_or_pos (digitCount number - 1) with zero | more
  · rw [zero]
    exact positive
  · refine Nat.le_of_not_lt fun less => ?_
    have short := (Nat.length_toDigits_le_iff (by decide) more).mpr less
    change digitCount number ≤ digitCount number - 1 at short
    omega

theorem digitCount_pos (number : Nat) : 0 < digitCount number :=
  Nat.length_toDigits_pos

theorem digitCount_le_log2 (positive : 0 < number) : digitCount number ≤ number.log2 + 1 := by
  have long : 2 ^ (digitCount number - 1) ≤ number :=
    Nat.le_trans (Nat.pow_le_pow_left (by decide) _) (ten_pow_digitCount_le positive)
  have log := (Nat.le_log2 positive.ne').mpr long
  omega

end

section

variable {decimal : Decimal}

theorem toRat_nonneg (decimal : Decimal) : 0 ≤ decimal.toRat :=
  mul_nonneg (Nat.cast_nonneg _) (zpow_pos (by norm_num) _).le

/-- A decimal is below the power of ten that its point stands at. -/
theorem toRat_lt (decimal : Decimal) : decimal.toRat < 10 ^ decimal.point := by
  have bound := lt_ten_pow_digitCount decimal.digits
  have castBound : (decimal.digits : ℚ) < 10 ^ digitCount decimal.digits := by
    exact_mod_cast bound
  rw [point, zpow_add₀ (by norm_num), zpow_natCast]
  exact mul_lt_mul_of_pos_right castBound (zpow_pos (by norm_num) _)

theorem le_toRat (positive : 0 < decimal.digits) : 10 ^ (decimal.point - 1) ≤ decimal.toRat := by
  have bound := ten_pow_digitCount_le positive
  have castBound : 10 ^ (digitCount decimal.digits - 1) ≤ (decimal.digits : ℚ) := by
    exact_mod_cast bound
  have some := digitCount_pos decimal.digits
  have isPoint : decimal.point - 1 = (digitCount decimal.digits - 1 : Nat) + decimal.exponent := by
    rw [point]
    omega
  rw [isPoint, zpow_add₀ (by norm_num), zpow_natCast]
  exact mul_le_mul_of_nonneg_right castBound (zpow_pos (by norm_num) _).le

end

/-! ## Short decimals -/

/-- A whole number of at most 53 bits is a double. -/
theorem toRat_toFloat
    {number : Nat}
    (positive : 0 < number)
    (small : number < 2 ^ 53) :
    Double.toRat number.toUInt64.toFloat = number := by
  have isLog : number.log2 < 53 := (Nat.log2_lt positive.ne').mpr small
  set count := 52 - number.log2 with isCount
  have isTarget : target number 0 = -count := by
    rw [target_eq]
    omega
  obtain ⟨whole, rounds, isRounded⟩ := exists_round_eq_carried .positive positive 0
  rw [isTarget, zpow_zero, mul_one] at rounds
  rw [isTarget] at isRounded
  have isDouble : number.toUInt64.toFloat = ofRounded whole (-count) := by
    have same : number.toUInt64.toNat = number := Nat.mod_eq_of_lt (by omega)
    change Float.ofModel (Float.Model.pack
      (UnpackedFloat.normalize Format.binary64 (number.toUInt64.toNat : Int) 0 .positive)) = _
    rw [same, UnpackedFloat.normalize, Int.compare_eq_gt.mpr (by omega)]
    dsimp only
    rw [Int.toNat_natCast, isRounded]
    rfl
  have isMultiple : (number : ℚ) = (number * 2 ^ count : ℤ) * 2 ^ (-count : ℤ) := by
    rw [zpow_neg, zpow_natCast]
    push_cast
    field_simp
  rw [isDouble, rounds.toRat_ofRounded ((fits_carried_iff _ _ _).mpr (.inr (.inl (by omega)))),
    rounds.exact isMultiple]

/-- The powers of ten that are doubles are kept as such. -/
theorem toRat_exactlyRepresentable {power : Nat} (low : power < 23) :
    Double.toRat (getElem Float.exactlyRepresentablePowersOfTen power low) = 10 ^ power := by
  have exact : ∀ index : Fin 23,
      units (getElem Float.exactlyRepresentablePowersOfTen index.val index.isLt) =
        10 ^ index.val * 2 ^ 1074 := by
    decide +kernel
  have isUnits := exact ⟨power, low⟩
  have castUnits (scale : Nat) : ((10 ^ power * 2 ^ scale : ℤ) : ℚ) = 10 ^ power * 2 ^ scale := by
    push_cast
    rfl
  rw [Double.toRat, isUnits, castUnits]
  exact mul_div_cancel_right₀ _ (by positivity)

/-! ## All decimals -/

/-- The double is the nearest one to a number, without a minus sign. -/
structure IsRead (number : ℚ) (value : Float) : Prop where
  isNearest : IsNearest number value
  isPositive : isNegative value = false

theorem isRead_of_roundsAt
    {number : ℚ} {exponent : ℤ} {whole : Nat} {unpacked : UnpackedFloat}
    (rounds : RoundsAt number exponent whole)
    (isRounded : unpacked = carried .positive whole exponent) :
    IsRead number (.ofModel (Float.Model.pack unpacked)) := by
  rw [isRounded]
  exact ⟨rounds.isNearest, isNegative_ofRounded⟩

/-- Digits and a power of ten that are doubles are multiplied or divided. -/
theorem isRead_of_short
    {digits : Nat} {exponent : Int}
    (positive : 0 < digits)
    (small : digits < 2 ^ 53)
    (low : exponent.natAbs ≤ 22) :
    IsRead (toRat ⟨digits, exponent⟩)
      (Float.ofScientific digits (exponent < 0) exponent.natAbs) := by
  have isDigits := toRat_toFloat positive small
  have isPower := toRat_exactlyRepresentable (Nat.lt_succ_of_le low)
  have digitsPositive : 0 < Double.toRat digits.toUInt64.toFloat := by
    rw [isDigits]
    exact_mod_cast positive
  have powerPositive : 0 < Double.toRat
      (getElem Float.exactlyRepresentablePowersOfTen exponent.natAbs (Nat.lt_succ_of_le low)) := by
    rw [isPower]
    positivity
  unfold Float.ofScientific
  rw [dif_pos ⟨small, low⟩]
  dsimp only
  split
  next negative =>
    have isNumber : toRat ⟨digits, exponent⟩ = digits / 10 ^ exponent.natAbs := by
      have isExponent : exponent = -(exponent.natAbs : ℤ) := by
        have below := of_decide_eq_true negative
        omega
      rw [toRat]
      conv_lhs => rw [isExponent, zpow_neg, zpow_natCast]
      exact (div_eq_mul_inv _ _).symm
    have quotient := isNearest_div digitsPositive powerPositive
    rw [isDigits, isPower, ← isNumber] at quotient
    exact ⟨quotient.1, quotient.2⟩
  next notNegative =>
    have isNumber : toRat ⟨digits, exponent⟩ = digits * 10 ^ exponent.natAbs := by
      have isExponent : exponent = (exponent.natAbs : ℤ) := by
        have notBelow := of_decide_eq_false (Bool.eq_false_iff.mpr notNegative)
        omega
      rw [toRat]
      conv_lhs => rw [isExponent, zpow_natCast]
    have product := isNearest_mul digitsPositive powerPositive
    rw [isDigits, isPower, ← isNumber] at product
    exact ⟨product.1, product.2⟩

/-- All other digits are multiplied or divided by the exact power of ten. -/
theorem isRead_of_long
    {digits : Nat}
    (exponent : Int)
    (positive : 0 < digits)
    (low : -(2 ^ 11 + digits.log2) ≤ exponent)
    (high : exponent ≤ 2 ^ 11) :
    IsRead (toRat ⟨digits, exponent⟩) (.ofModel (Float.Model.ofScientific digits exponent)) := by
  unfold Float.Model.ofScientific UnpackedFloat.ofScientific
  rw [dif_neg positive.ne', if_neg (not_lt.mpr high), if_neg (not_lt.mpr low)]
  by_cases nonneg : 0 ≤ exponent
  · have powerPositive : 0 < 10 ^ exponent.toNat := Nat.pow_pos (by decide)
    have shifted : digits <<< 53 = digits * 2 ^ 53 := Nat.shiftLeft_eq ..
    have long : 2 ^ 52 ≤ (digits <<< 53) * 10 ^ exponent.toNat :=
      Nat.le_trans (by omega) (Nat.le_mul_of_pos_right (digits <<< 53) powerPositive)
    obtain ⟨power, whole, rounds, product⟩ := exists_mul_eq_carried .positive .positive (-53) 0
      (by omega : 0 < digits <<< 53) powerPositive (.inl long)
    rw [if_pos nonneg]
    refine isRead_of_roundsAt ?_ product
    have isNumber : ((digits <<< 53 : Nat) * 2 ^ (-53 : ℤ) : ℚ) *
        ((10 ^ exponent.toNat : Nat) * 2 ^ (0 : ℤ)) = toRat ⟨digits, exponent⟩ := by
      have isExponent : exponent = (exponent.toNat : ℤ) := (Int.toNat_of_nonneg nonneg).symm
      rw [toRat]
      conv_rhs => rw [isExponent, zpow_natCast]
      rw [shifted, zpow_neg, zpow_zero, mul_one]
      push_cast
      field_simp
    rwa [isNumber] at rounds
  · obtain ⟨power, whole, rounds, quotient⟩ := exists_div_eq_carried 0 0 positive
      (Nat.pow_pos (by decide) : 0 < 10 ^ (-exponent).toNat)
    rw [if_neg nonneg]
    refine isRead_of_roundsAt ?_ quotient
    have isNumber : (digits * 2 ^ (0 : ℤ) : ℚ) / ((10 ^ (-exponent).toNat : Nat) * 2 ^ (0 : ℤ)) =
        toRat ⟨digits, exponent⟩ := by
      have isExponent : exponent = -((-exponent).toNat : ℤ) := by omega
      rw [toRat]
      conv_rhs => rw [isExponent, zpow_neg, zpow_natCast]
      rw [zpow_zero, mul_one, mul_one]
      push_cast
      exact div_eq_mul_inv _ _
    rwa [isNumber] at rounds

/-- Decimals that have too many digits in front of their point are infinite. -/
theorem isRead_infinity
    {decimal : Decimal}
    (positive : 0 < decimal.digits)
    (high : overflowPoint ≤ decimal.point) :
    IsRead decimal.toRat infinity := by
  have above : (2 : ℚ) ^ 1024 ≤ decimal.toRat :=
    calc (2 : ℚ) ^ 1024
        ≤ 10 ^ 309 := by
          have powers : 2 ^ 1024 ≤ 10 ^ 309 := by decide +kernel
          exact_mod_cast powers
      _ = 10 ^ (309 : ℤ) := (zpow_ofNat ..).symm
      _ ≤ 10 ^ (decimal.point - 1) := zpow_le_zpow_right₀ (by norm_num) (by
          unfold overflowPoint at high
          omega)
      _ ≤ decimal.toRat := le_toRat positive
  refine ⟨.infinite ?_ (by decide +kernel), by decide +kernel⟩
  rw [abs_of_nonneg decimal.toRat_nonneg, ← not_lt, mul_lt_limit_iff, not_lt]
  have top : (2 : ℚ) ^ 53 * 2 ^ 971 = 2 ^ 1024 := (pow_add 2 53 971).symm
  rw [zpow_ofNat]
  calc (2 ^ 53 - 1 / 2) * 2 ^ 971
      ≤ (2 : ℚ) ^ 53 * 2 ^ 971 := mul_le_mul_of_nonneg_right (by norm_num) (by positivity)
    _ = 2 ^ 1024 := top
    _ ≤ decimal.toRat := above

/-- What is less than half of the least positive double is zero. -/
theorem isRead_of_small
    {number : ℚ}
    (nonneg : 0 ≤ number)
    (small : number < 1 / 2 * 2 ^ (-1074 : ℤ)) :
    IsRead number 0 := by
  have isZero : (0 : Float) = .ofModel (Float.Model.pack (carried .positive 0 (-1074))) := by
    decide +kernel
  have least : (0 : ℚ) < 2 ^ (-1074 : ℤ) := zpow_pos two_pos _
  rw [← div_lt_iff₀ least] at small
  rw [isZero]
  refine isRead_of_roundsAt ⟨⟨?_, fun _ => rfl⟩, nonneg, le_rfl, by linarith, .inr rfl⟩ rfl
  rw [Nat.cast_zero, sub_zero, abs_of_nonneg (div_nonneg nonneg least.le)]
  exact small.le

/-- Decimals that have too many zeros behind their point are less than half of the least positive
double. -/
theorem toRat_lt_of_low {decimal : Decimal} (low : decimal.point ≤ underflowPoint) :
    decimal.toRat < 1 / 2 * 2 ^ (-1074 : ℤ) :=
  calc decimal.toRat
      < 10 ^ decimal.point := decimal.toRat_lt
    _ ≤ 10 ^ (-330 : ℤ) := zpow_le_zpow_right₀ (by norm_num) low
    _ ≤ 1 / 2 * 2 ^ (-1074 : ℤ) := by
        have powers : 2 * 2 ^ 1074 ≤ 10 ^ 330 := by decide +kernel
        have castPowers : (2 : ℚ) * 2 ^ 1074 ≤ 10 ^ 330 := by exact_mod_cast powers
        rw [zpow_neg, zpow_neg, zpow_ofNat, zpow_ofNat, one_div, ← mul_inv]
        exact inv_anti₀ (by positivity) castPowers

theorem signed_natAbs (exponent : Int) :
    (if decide (exponent < 0) = true then Int.negOfNat exponent.natAbs
      else Int.ofNat exponent.natAbs) = exponent := by
  split
  next negative =>
    have below := of_decide_eq_true negative
    rw [Int.negOfNat_eq]
    change -(exponent.natAbs : Int) = exponent
    omega
  next notNegative =>
    have notBelow := of_decide_eq_false (Bool.eq_false_iff.mpr notNegative)
    change (exponent.natAbs : Int) = exponent
    omega

/-- A decimal is read as the double that is nearest to it. -/
theorem isRead_toFloat (decimal : Decimal) : IsRead decimal.toRat decimal.toFloat := by
  unfold toFloat
  split
  next zero =>
    refine isRead_of_small decimal.toRat_nonneg ?_
    rw [toRat, zero, Nat.cast_zero, zero_mul]
    exact mul_pos (by norm_num) (zpow_pos two_pos _)
  next notZero =>
    have positive := Nat.pos_of_ne_zero notZero
    split
    next high => exact isRead_infinity positive high
    next notHigh =>
      split
      next low => exact isRead_of_small decimal.toRat_nonneg (toRat_lt_of_low low)
      next notLow =>
        by_cases short : decimal.digits < 2 ^ 53 ∧ decimal.exponent.natAbs ≤ 22
        · exact isRead_of_short positive short.1 short.2
        · have some := digitCount_pos decimal.digits
          have most := digitCount_le_log2 positive
          simp only [point, overflowPoint, underflowPoint] at notHigh notLow
          have isRead := isRead_of_long decimal.exponent positive (by omega) (by omega)
          unfold Float.ofScientific
          rw [dif_neg short]
          dsimp only
          rwa [signed_natAbs]

/-! ## Literals -/

namespace Literal

/-- The double is what the literal stands for: the nearest one to its number, with its sign. -/
inductive Denotes : Literal → Float → Prop
  | nan
      {value : Float}
      (isNaN : value.isNaN = true) :
      Denotes .nan value
  | infinite
      {negative : Bool} {value : Float}
      (isInfinite : value.isInf = true)
      (isSign : isNegative value = negative) :
      Denotes (.infinite negative) value
  | number
      {negative : Bool} {decimal : Decimal} {value : Float}
      (isNearest : IsNearest (if negative then -decimal.toRat else decimal.toRat) value)
      (isSign : isNegative value = negative) :
      Denotes (.number negative decimal) value

theorem denotes_toFloat (literal : Literal) : literal.Denotes literal.toFloat := by
  cases literal with
  | nan => exact .nan (by decide +kernel)
  | infinite negative =>
      cases negative with
      | false => exact .infinite (by decide +kernel) (by decide +kernel)
      | true => exact .infinite (by decide +kernel) (by decide +kernel)
  | number negative decimal =>
      obtain ⟨isNearest, isPositive⟩ := isRead_toFloat decimal.normalize
      rw [toRat_normalize] at isNearest
      cases negative with
      | false => exact .number isNearest isPositive
      | true =>
          refine .number isNearest.neg ?_
          have flipped := isNegative_neg isNearest.isNaN
          rw [isPositive] at flipped
          exact flipped

theorem Denotes.unique
    {literal : Literal} {value other : Float}
    (denotes : literal.Denotes value)
    (otherDenotes : literal.Denotes other) :
    value = other := by
  cases denotes with
  | nan isNaN =>
      cases otherDenotes with
      | nan otherIsNaN => exact eq_of_isNaN isNaN otherIsNaN
  | infinite isInfinite isSign =>
      cases otherDenotes with
      | infinite otherInfinite otherSign =>
          exact eq_of_isInf isInfinite otherInfinite (isSign.trans otherSign.symm)
  | number isNearest isSign =>
      cases otherDenotes with
      | number otherNearest otherSign =>
          exact isNearest.unique otherNearest (isSign.trans otherSign.symm)

/-- A literal stands for one double, which is the one that it is read as. -/
theorem denotes_iff {literal : Literal} {value : Float} :
    literal.Denotes value ↔ literal.toFloat = value := by
  constructor
  · exact literal.denotes_toFloat.unique
  · rintro rfl
    exact literal.denotes_toFloat

end Literal
end Decimal
end CompositeIndex
