import CompositeIndex.Decimal.Shortest
import CompositeIndex.Proofs.Decimal.Reading

/-!
# The shortest decimal

The decimal that a finite double is written as stands for that double. What the search takes reads
back to the double, its sign apart, and the exact value does so because a double is the nearest one
to itself.
-/

namespace CompositeIndex
namespace Double

open Float.Model Float.Model.UnpackedFloat
open Decimal (isNegative magnitude)

section

variable {value other : Float}

/-- A finite double is the nearest one to its own value. -/
theorem isNearest_toRat (finite : value.isFinite = true) : IsNearest (toRat value) value := by
  have bound := natAbs_unitsOf_lt (isUnpacked_of_isFinite finite)
  refine .finite ?_ ⟨finite, ?_, ?_⟩
  · have size : |toRat value| * 2 ^ 1074 = (units value).natAbs := by
      rw [toRat, abs_div, abs_of_pos (by positivity : (0 : ℚ) < 2 ^ 1074),
        div_mul_cancel₀ _ (by positivity), Nat.cast_natAbs, Int.cast_abs]
    rw [size]
    exact_mod_cast bound
  · intro other _
    rw [sub_self, abs_zero]
    exact abs_nonneg _
  · intro other _ different equal
    rw [sub_self, abs_zero, abs_eq_zero, sub_eq_zero] at equal
    exact absurd equal.symm different

/-- A finite double is its magnitude with its sign. -/
theorem toRat_of_magnitude
    {significand : Nat} {exponent : Int}
    (finite : value.isFinite = true)
    (isMagnitude : magnitude value = .finite significand exponent) :
    toRat value = if isNegative value then -(significand * 2 ^ exponent : ℚ)
      else significand * 2 ^ exponent := by
  have unpacks := unpacks_unpack value.toModel.toBits.toBitVec
  have isSign := isNegative_iff (isNaN_of_isFinite finite)
  have signed {sign : Sign} (isSign : isNegative value = true ↔ sign = .negative)
      {mantissa : Nat} {exponent : Int} (positive : 0 < mantissa) (low : -1074 ≤ exponent) :
      (unitsOf (.finite sign mantissa exponent positive) : ℚ) / 2 ^ 1074 =
        if isNegative value then -(mantissa * 2 ^ exponent : ℚ) else mantissa * 2 ^ exponent := by
    rw [unitsOf_div sign positive low]
    cases sign with
    | positive =>
        rw [if_neg (mt isSign.mp nofun)]
        rfl
    | negative =>
        rw [if_pos (isSign.mpr rfl), ← neg_mul]
        simp [Sign.apply]
  unfold magnitude at isMagnitude
  dsimp only at isMagnitude
  rw [← exponentField_toBits, ← fractionField_toBits] at isMagnitude
  change value.toModel.unpack.isFinite = true at finite
  change Unpacks _ _ value.toModel.unpack at unpacks
  unfold toRat units
  generalize value.toModel.unpack = number at finite unpacks isSign
  cases unpacks with
  | infinity => cases finite
  | notANumber => cases finite
  | zero sign least empty =>
      rw [if_neg (by omega), if_pos least, empty] at isMagnitude
      cases isMagnitude
      simp
  | subnormal sign positive power isPower least =>
      rw [if_neg (by omega), if_pos least, ← isPower] at isMagnitude
      cases isMagnitude
      exact signed isSign positive (by omega)
  | normal sign mantissa positive isMantissa above below =>
      have sameMantissa : Nat.pow 2 52 + fractionField _ = mantissa := isMantissa.symm
      rw [if_neg (by omega), if_neg (by omega), sameMantissa] at isMagnitude
      cases isMagnitude
      exact signed isSign positive (by omega)

/-! ## Bits -/

theorem Unpacks.neg
    {exponent fraction : Nat} {number : UnpackedFloat}
    (unpacks : Unpacks exponent fraction number) :
    Unpacks exponent fraction number.neg := by
  cases unpacks with
  | infinity sign full empty => exact .infinity (-sign) full empty
  | notANumber full marked => exact .notANumber full marked
  | zero sign least empty => exact .zero (-sign) least empty
  | subnormal sign positive power isPower least =>
      exact .subnormal (-sign) positive power isPower least
  | normal sign mantissa positive isMantissa above below =>
      exact .normal (-sign) mantissa positive isMantissa above below

/-- A double is made up by its sign and the double that its other bits stand for. -/
theorem eq_of_bits
    (number : value.isNaN = false)
    (otherNumber : other.isNaN = false)
    (unmarked : isNegative other = false)
    (same : other.toBits.toNat % 2 ^ 63 = value.toBits.toNat % 2 ^ 63) :
    value = if isNegative value then -other else other := by
  have unpacks := unpacks_unpack value.toModel.toBits.toBitVec
  have otherUnpacks := unpacks_unpack other.toModel.toBits.toBitVec
  change other.toModel.toBits.toBitVec.toNat % 2 ^ 63 =
    value.toModel.toBits.toBitVec.toNat % 2 ^ 63 at same
  rw [exponentField_eq, fractionField_eq] at unpacks otherUnpacks
  rw [same] at otherUnpacks
  have isSign := isNegative_iff number
  by_cases marked : isNegative value = true
  · have flipped : isNegative (-other) = true := by
      rw [isNegative_neg otherNumber, unmarked]
      rfl
    have otherSign := isNegative_iff (isNaN_neg otherNumber)
    have negated := unpack_neg otherNumber
    rw [negated] at otherSign
    rw [if_pos marked]
    refine eq_of_unpack_eq number ?_
    rw [negated]
    exact unpacks.eq otherUnpacks.neg
      (sign_eq_of_iff (iff_of_true (isSign.mp marked) (otherSign.mp flipped)))
  · have otherSign := isNegative_iff otherNumber
    rw [if_neg marked]
    exact eq_of_unpack_eq number (unpacks.eq otherUnpacks (sign_eq_of_iff
      (iff_of_false (mt isSign.mpr marked) (mt otherSign.mpr (Bool.eq_false_iff.mp unmarked)))))

end

end Double

namespace Decimal

open Double

section

variable {tie : Tie} {bits point significand : Nat} {ratio : Ratio} {decimal : Decimal}

theorem readsBack_onGrid {power : Int} (found : onGrid tie bits ratio power = some decimal) :
    readsBack bits decimal = true := by
  unfold onGrid at found
  dsimp only at found
  split at found
  next => cases found
  next lower _ =>
    cases found
    exact lower
  next _ upper =>
    cases found
    exact upper
  next lower upper =>
    repeat' split at found
    all_goals cases found
    all_goals assumption

theorem readsBack_search
    {point : Int} {grids count : Nat}
    (found : search tie bits ratio point grids count = some decimal) :
    readsBack bits decimal = true := by
  induction grids generalizing count with
  | zero => cases found
  | succ grids inductionHypothesis =>
      rw [search] at found
      split at found
      next isFound =>
        cases found
        exact readsBack_onGrid isFound
      next => exact inductionHypothesis found

/-- The exact decimal is the number itself. -/
theorem toRat_exact (significand : Nat) (exponent : Int) :
    (exact significand exponent).toRat = significand * 2 ^ exponent := by
  unfold exact
  split
  next negative =>
    have isExponent : exponent = -(exponent.natAbs : ℤ) := by omega
    have ten : (10 : ℚ) = 2 * 5 := by norm_num
    rw [toRat_normalize, toRat]
    dsimp only
    generalize exponent.natAbs = count at isExponent ⊢
    rw [isExponent, zpow_neg, zpow_neg, zpow_natCast, zpow_natCast, ten, mul_pow, Nat.pow_eq]
    push_cast
    field_simp
  next notNegative =>
    have isExponent : exponent = (exponent.natAbs : ℤ) := by omega
    rw [toRat_normalize, toRat]
    dsimp only
    generalize exponent.natAbs = count at isExponent ⊢
    rw [isExponent, zpow_natCast, zpow_zero, mul_one, Nat.pow_eq]
    push_cast
    rfl

end

section

variable {value : Float} {significand : Nat} {exponent : Int} {decimal : Decimal}

theorem denotes_of_readsBack
    (finite : value.isFinite = true)
    (isBack : readsBack (value.toBits.toNat % Nat.pow 2 63) decimal = true) :
    (Literal.number (isNegative value) decimal).Denotes value := by
  obtain ⟨isNearest, unmarked⟩ := isRead_toFloat decimal
  have made := eq_of_bits (isNaN_of_isFinite finite) isNearest.isNaN unmarked (eq_of_beq isBack)
  refine .number ?_ rfl
  cases marked : isNegative value with
  | false =>
      rw [marked] at made
      rw [made]
      exact isNearest
  | true =>
      rw [marked] at made
      rw [made]
      exact isNearest.neg

/-- The shortest decimal of a finite double and its sign stand for the double. -/
theorem denotes_shortest
    (tie : Tie)
    (finite : value.isFinite = true)
    (isMagnitude : magnitude value = .finite significand exponent) :
    (Literal.number (isNegative value)
      (shortest tie (value.toBits.toNat % Nat.pow 2 63) significand exponent)).Denotes value := by
  have isRat := toRat_of_magnitude finite isMagnitude
  have ofRat {decimal : Decimal} (isExact : decimal.toRat = significand * 2 ^ exponent) :
      (Literal.number (isNegative value) decimal).Denotes value := by
    have isNearest := isNearest_toRat finite
    rw [isRat, ← isExact] at isNearest
    exact .number isNearest rfl
  unfold shortest
  split
  next zero => exact ofRat (by simp [toRat, zero])
  next =>
    dsimp only
    cases found : search tie (value.toBits.toNat % Nat.pow 2 63)
        (Ratio.ofBinary significand exponent)
        (Ratio.ofBinary significand exponent).leadingPoint 17 1 with
    | some decimal => exact denotes_of_readsBack finite (readsBack_search found)
    | none => exact ofRat (toRat_exact significand exponent)

theorem Literal.Denotes.congr
    {negative : Bool} {other : Decimal}
    (denotes : (Literal.number negative decimal).Denotes value)
    (same : other.toRat = decimal.toRat) :
    (Literal.number negative other).Denotes value := by
  cases denotes with
  | number isNearest isSign =>
      rw [← same] at isNearest
      exact .number isNearest isSign

/-- A decimal that stands for a finite double has its point among those of the doubles. -/
theorem Literal.Denotes.point_lt
    {negative : Bool}
    (denotes : (Literal.number negative decimal).Denotes value)
    (finite : value.isFinite = true)
    (positive : 0 < decimal.digits) :
    decimal.point < overflowPoint := by
  by_contra high
  obtain ⟨isNearest, unmarked⟩ := isRead_infinity positive (not_lt.mp high)
  cases negative with
  | false =>
      rw [denotes.unique (.number isNearest unmarked)] at finite
      exact absurd finite (by decide +kernel)
  | true =>
      have marked : isNegative (-infinity) = true := by decide +kernel
      rw [denotes.unique (.number isNearest.neg marked)] at finite
      exact absurd finite (by decide +kernel)

end

end Decimal
end CompositeIndex
