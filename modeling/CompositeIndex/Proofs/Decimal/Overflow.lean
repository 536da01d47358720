import CompositeIndex.Index.Divisors
import CompositeIndex.Proofs.Decimal.Rounding
import CompositeIndex.Proofs.Json.Numeral

/-!
# Overflow

A sum or a quotient of finite doubles is finite exactly if the exact result is below a limit. It
is never something that is no number, so that it is infinite if it is not finite.
-/

namespace CompositeIndex
namespace Double

open Float.Model Float.Model.UnpackedFloat

/-! ## Fields -/

/-- The field of a double that its exponent is kept in. -/
def exponentField (bits : BitVec 64) : Nat :=
  (@unpackExponent Format.binary64 bits).toNat

/-- The field of a double that its mantissa is kept in, without the leading bit. -/
def fractionField (bits : BitVec 64) : Nat :=
  (@unpackMantissa Format.binary64 bits).toNat

theorem exponentField_lt (bits : BitVec 64) : exponentField bits < 2 ^ 11 :=
  BitVec.isLt _

theorem fractionField_lt (bits : BitVec 64) : fractionField bits < 2 ^ 52 :=
  BitVec.isLt _

theorem exponentField_eq (bits : BitVec 64) :
    exponentField bits = bits.toNat % 2 ^ 63 / 2 ^ 52 := by
  have field : exponentField bits = (bits.toNat >>> 52) % 2 ^ 11 := rfl
  rw [field, Nat.shiftRight_eq_div_pow]
  omega

theorem fractionField_eq (bits : BitVec 64) :
    fractionField bits = bits.toNat % 2 ^ 63 % 2 ^ 52 := by
  have field : fractionField bits = (bits.toNat >>> 0) % 2 ^ 52 := rfl
  rw [field, Nat.shiftRight_zero]
  omega

/-- What stands for an exponent field and a mantissa field, the sign apart. -/
inductive Unpacks (exponent fraction : Nat) : UnpackedFloat → Prop
  | infinity (sign : Sign) (full : exponent = 2047) (empty : fraction = 0) :
      Unpacks exponent fraction (.infinity sign)
  | notANumber (full : exponent = 2047) (marked : fraction ≠ 0) :
      Unpacks exponent fraction .notANumber
  | zero (sign : Sign) (least : exponent = 0) (empty : fraction = 0) :
      Unpacks exponent fraction (.zero sign)
  | subnormal
      (sign : Sign)
      (positive : 0 < fraction)
      (power : Int)
      (isPower : power = -1074)
      (least : exponent = 0) :
      Unpacks exponent fraction (.finite sign fraction power positive)
  | normal
      (sign : Sign)
      (mantissa : Nat)
      (positive : 0 < mantissa)
      (isMantissa : mantissa = 2 ^ 52 + fraction)
      (above : 0 < exponent)
      (below : exponent < 2047) :
      Unpacks exponent fraction (.finite sign mantissa (exponent - 1075) positive)

theorem unpacks_unpack (bits : BitVec 64) :
    Unpacks (exponentField bits) (fractionField bits)
      (UnpackedFloat.unpack Format.binary64 bits) := by
  have bound := exponentField_lt bits
  have isFull : @unpackExponent Format.binary64 bits = -1#11 ↔ exponentField bits = 2047 :=
    BitVec.toNat_inj.symm
  have isLeast : @unpackExponent Format.binary64 bits = 0#11 ↔ exponentField bits = 0 :=
    BitVec.toNat_inj.symm
  have isFraction : @unpackMantissa Format.binary64 bits = 0#52 ↔ fractionField bits = 0 :=
    BitVec.toNat_inj.symm
  unfold UnpackedFloat.unpack
  dsimp only
  by_cases full : @unpackExponent Format.binary64 bits = -1#11
  · rw [if_pos full]
    by_cases empty : @unpackMantissa Format.binary64 bits = 0#52
    · rw [if_pos empty]
      exact .infinity _ (isFull.mp full) (isFraction.mp empty)
    · rw [if_neg empty]
      exact .notANumber (isFull.mp full) (mt isFraction.mpr empty)
  · rw [if_neg full]
    have notFull : exponentField bits ≠ 2047 := mt isFull.mpr full
    by_cases least : @unpackExponent Format.binary64 bits = 0#11
    · rw [if_pos least]
      have zero := isLeast.mp least
      by_cases empty : @unpackMantissa Format.binary64 bits = 0#52
      · rw [dif_pos empty]
        exact .zero _ zero (isFraction.mp empty)
      · rw [dif_neg empty]
        refine .subnormal _ _ _ ?_ zero
        change (exponentField bits : Int) - 1075 + 1 = -1074
        omega
    · rw [if_neg least]
      have notLeast : exponentField bits ≠ 0 := mt isLeast.mpr least
      refine .normal _ _ _ ?_ (by omega) (by omega)
      rw [BitVec.toNat_append, ← Nat.shiftLeft_add_eq_or_of_lt (BitVec.isLt _)]
      rfl

/-! ## Doubles -/

theorem exponentField_packComponents
    (sign : Sign)
    (exponent : BitVec 11)
    (mantissa : BitVec 52) :
    exponentField (packComponents Format.binary64 sign exponent mantissa) = exponent.toNat :=
  congrArg BitVec.toNat unpackExponent_packComponents

theorem fractionField_packComponents
    (sign : Sign)
    (exponent : BitVec 11)
    (mantissa : BitVec 52) :
    fractionField (packComponents Format.binary64 sign exponent mantissa) = mantissa.toNat :=
  congrArg BitVec.toNat unpackMantissa_packComponents

section

variable {sign : Sign} {mantissa : Nat} {exponent : Int}

theorem pack_of_high (positive : 0 < mantissa) (high : 971 < exponent) :
    UnpackedFloat.pack Format.binary64 (.finite sign mantissa exponent positive) =
      packedInfinity Format.binary64 sign := by
  refine if_pos ?_
  change 2048 ≤ (exponent + 1023 + 52).toNat + 1
  omega

theorem pack_of_low (positive : 0 < mantissa) (low : exponent ≤ 971) :
    UnpackedFloat.pack Format.binary64 (.finite sign mantissa exponent positive) =
      if mantissa.log2 + 1 = 53 then
        packComponents Format.binary64 sign (BitVec.ofNat 11 (exponent + 1023 + 52).toNat)
          (BitVec.ofNat 52 mantissa)
      else packComponents Format.binary64 sign 0#11 (BitVec.ofNat 52 mantissa) := by
  refine if_neg ?_
  change ¬2048 ≤ (exponent + 1023 + 52).toNat + 1
  omega

theorem exponentField_pack_of_low (positive : 0 < mantissa) (low : exponent ≤ 971) :
    exponentField (UnpackedFloat.pack Format.binary64 (.finite sign mantissa exponent positive)) ≠
      2047 := by
  rw [pack_of_low positive low]
  split
  · rw [exponentField_packComponents, BitVec.toNat_ofNat]
    omega
  · rw [exponentField_packComponents]
    decide

end

theorem fits_iff_exponentField (number : UnpackedFloat) :
    Fits number ↔ exponentField (UnpackedFloat.pack Format.binary64 number) ≠ 2047 := by
  cases number with
  | notANumber =>
      exact iff_of_false id fun different => different (exponentField_packComponents ..)
  | infinity sign =>
      exact iff_of_false id fun different => different (exponentField_packComponents ..)
  | zero sign =>
      refine iff_of_true trivial fun full => ?_
      cases (exponentField_packComponents sign 0 0).symm.trans full
  | finite sign mantissa exponent positive =>
      rcases Int.lt_or_le 971 exponent with high | low
      · rw [pack_of_high positive high]
        exact iff_of_false (Int.not_le.mpr high) fun different =>
          different (exponentField_packComponents ..)
      · exact iff_of_true low (exponentField_pack_of_low positive low)

section

variable {exponent fraction : Nat} {number : UnpackedFloat}

theorem Unpacks.isFinite_iff (unpacks : Unpacks exponent fraction number) :
    number.isFinite = true ↔ exponent ≠ 2047 := by
  cases unpacks with
  | infinity sign full empty => exact iff_of_false nofun fun notFull => notFull full
  | notANumber full marked => exact iff_of_false nofun fun notFull => notFull full
  | zero sign least empty => exact iff_of_true rfl (by omega)
  | subnormal sign positive power isPower least => exact iff_of_true rfl (by omega)
  | normal sign mantissa positive isMantissa above below => exact iff_of_true rfl (by omega)

theorem Unpacks.isNaN_iff (unpacks : Unpacks exponent fraction number) :
    number.isNaN = true ↔ exponent = 2047 ∧ fraction ≠ 0 := by
  cases unpacks with
  | notANumber full marked => exact iff_of_true rfl ⟨full, marked⟩
  | infinity sign full empty => exact iff_of_false nofun fun both => both.2 empty
  | zero sign least empty => exact iff_of_false nofun fun both => both.2 empty
  | subnormal sign positive power isPower least => exact iff_of_false nofun (by omega)
  | normal sign mantissa positive isMantissa above below => exact iff_of_false nofun (by omega)

end

theorem isFinite_pack_iff (number : UnpackedFloat) :
    (Float.Model.pack number).isFinite = true ↔ Fits number :=
  ((unpacks_unpack _).isFinite_iff).trans (fits_iff_exponentField number).symm

/-- Only what is not a number is packed as such. -/
theorem isNaN_pack_iff (number : UnpackedFloat) :
    (Float.Model.pack number).isNaN = true ↔ number = .notANumber := by
  refine ((unpacks_unpack _).isNaN_iff).trans ?_
  change exponentField (UnpackedFloat.pack Format.binary64 number) = 2047 ∧
    fractionField (UnpackedFloat.pack Format.binary64 number) ≠ 0 ↔ _
  constructor
  · rintro ⟨full, marked⟩
    have notFits : ¬Fits number := fun fits => (fits_iff_exponentField number).mp fits full
    cases number with
    | notANumber => rfl
    | infinity sign => exact absurd (fractionField_packComponents ..) marked
    | zero sign => exact absurd trivial notFits
    | finite sign mantissa exponent positive =>
        rw [pack_of_high positive (Int.not_le.mp notFits)] at marked
        exact absurd (fractionField_packComponents ..) marked
  · rintro rfl
    decide

/-! ## Sizes -/

theorem natAbs_apply (sign : Sign) (size : Nat) : (sign.apply size).natAbs = size := by
  cases sign <;> simp [Sign.apply]

/-- The size of a finite number with its sign, in units of the least positive double. -/
def unitsOf : UnpackedFloat → Int
  | .finite sign mantissa exponent _ => sign.apply (mantissa * 2 ^ (exponent + 1074).toNat : Nat)
  | _ => 0

/-- The size of a finite double with its sign, in units of the least positive one. -/
def units (value : Float) : Int :=
  unitsOf value.toModel.unpack

example : units (-1.5) = -3 * 2 ^ 1073 := by decide +kernel

@[simp] theorem unitsOf_zero (sign : Sign) : unitsOf (.zero sign) = 0 := rfl

theorem unitsOf_finite
    (sign : Sign)
    {mantissa : Nat}
    (exponent : Int)
    (positive : 0 < mantissa) :
    unitsOf (.finite sign mantissa exponent positive) =
      sign.apply (mantissa * 2 ^ (exponent + 1074).toNat : Nat) := rfl

theorem natAbs_unitsOf_finite
    (sign : Sign)
    {mantissa : Nat}
    (exponent : Int)
    (positive : 0 < mantissa) :
    (unitsOf (.finite sign mantissa exponent positive)).natAbs =
      mantissa * 2 ^ (exponent + 1074).toNat :=
  natAbs_apply ..

/-- A finite number as it is unpacked from a double. -/
inductive IsUnpacked : UnpackedFloat → Prop
  | zero (sign : Sign) : IsUnpacked (.zero sign)
  | finite
      (sign : Sign)
      (mantissa : Nat)
      (exponent : Int)
      (positive : 0 < mantissa)
      (small : mantissa < 2 ^ 53)
      (low : -1074 ≤ exponent)
      (high : exponent ≤ 971) :
      IsUnpacked (.finite sign mantissa exponent positive)

theorem isUnpacked_of_isFinite {value : Float} (finite : value.isFinite = true) :
    IsUnpacked value.toModel.unpack := by
  have unpacks := unpacks_unpack value.toModel.toBits.toBitVec
  have fractionBound := fractionField_lt value.toModel.toBits.toBitVec
  change (UnpackedFloat.unpack Format.binary64 value.toModel.toBits.toBitVec).isFinite = true
    at finite
  change IsUnpacked (UnpackedFloat.unpack Format.binary64 value.toModel.toBits.toBitVec)
  generalize UnpackedFloat.unpack Format.binary64 value.toModel.toBits.toBitVec = number
    at unpacks finite
  cases unpacks with
  | infinity sign full empty => cases finite
  | notANumber full marked => cases finite
  | zero sign least empty => exact .zero sign
  | subnormal sign positive power isPower least =>
      exact .finite sign _ _ positive (by omega) (by omega) (by omega)
  | normal sign mantissa positive isMantissa above below =>
      exact .finite sign _ _ positive (by omega) (by omega) (by omega)

/-- What is unpacked from a double is less than the limit. -/
theorem natAbs_unitsOf_lt {number : UnpackedFloat} (isUnpacked : IsUnpacked number) :
    (unitsOf number).natAbs < limit := by
  cases isUnpacked with
  | zero sign => exact limit_pos
  | finite sign mantissa exponent positive small low high =>
      rw [natAbs_unitsOf_finite]
      exact mul_lt_limitAt small (by omega)

/-- A lower exponent that is made up for by a shift leaves the size as it is. -/
theorem apply_shiftLeft_mul
    (sign : Sign)
    (mantissa : Nat)
    {least exponent : Int}
    (low : -1074 ≤ least)
    (above : least ≤ exponent) :
    sign.apply (mantissa <<< (exponent - least).toNat : Nat) * 2 ^ (least + 1074).toNat =
      sign.apply (mantissa * 2 ^ (exponent + 1074).toNat : Nat) := by
  have power : (exponent + 1074).toNat = (exponent - least).toNat + (least + 1074).toNat := by
    omega
  rw [power, Nat.shiftLeft_eq, pow_add, ← mul_assoc]
  cases sign with
  | positive => exact (Nat.cast_mul ..).symm
  | negative =>
      simp only [Sign.apply]
      push_cast
      ring

theorem fits_add_iff
    {left right : UnpackedFloat}
    (leftUnpacked : IsUnpacked left)
    (rightUnpacked : IsUnpacked right) :
    Fits (UnpackedFloat.add Format.binary64 left right) ↔
      (unitsOf left + unitsOf right).natAbs < limit := by
  have leftBound := natAbs_unitsOf_lt leftUnpacked
  have rightBound := natAbs_unitsOf_lt rightUnpacked
  cases leftUnpacked with
  | zero first =>
      cases rightUnpacked with
      | zero second =>
          refine iff_of_true ?_ limit_pos
          unfold UnpackedFloat.add
          dsimp only
          split <;> trivial
      | finite second mantissa exponent positive small low high =>
          refine iff_of_true high ?_
          rwa [unitsOf_zero, Int.zero_add]
  | finite first mantissa exponent positive small low high =>
      cases rightUnpacked with
      | zero second =>
          refine iff_of_true high ?_
          rwa [unitsOf_zero, Int.add_zero]
      | finite second other power otherPositive otherSmall otherLow otherHigh =>
          have least : -1074 ≤ min exponent power := le_min low otherLow
          unfold UnpackedFloat.add
          dsimp only [decreaseExponent]
          rw [fits_normalize_iff _ least (by omega), unitsOf_finite, unitsOf_finite,
            ← apply_shiftLeft_mul first mantissa least (min_le_left ..),
            ← apply_shiftLeft_mul second other least (min_le_right ..), ← add_mul,
            Int.natAbs_mul, Int.natAbs_pow]
          rfl

theorem fits_div_iff_of_isUnpacked
    {left : UnpackedFloat}
    (leftUnpacked : IsUnpacked left)
    (sign : Sign)
    {mantissa : Nat}
    {exponent : Int}
    (positive : 0 < mantissa)
    (low : -1074 ≤ exponent) :
    Fits (UnpackedFloat.div Format.binary64 left (.finite sign mantissa exponent positive)) ↔
      (unitsOf left).natAbs * 2 ^ 1074 <
        limit * (unitsOf (.finite sign mantissa exponent positive)).natAbs := by
  rw [natAbs_unitsOf_finite]
  cases leftUnpacked with
  | zero first =>
      refine iff_of_true trivial ?_
      rw [unitsOf_zero, Int.natAbs_zero, Nat.zero_mul]
      exact Nat.mul_pos limit_pos (Nat.mul_pos positive (Nat.two_pow_pos _))
  | finite first dividend up dividendPositive small upLow high =>
      rw [natAbs_unitsOf_finite]
      exact fits_div_iff first sign dividendPositive positive upLow low

/-! ## What is no number -/

theorem roundWithAccuracy_ne_notANumber
    (sign : Sign)
    (mantissa : Nat)
    (exponent : Int)
    (accuracy : Accuracy) :
    roundWithAccuracy Format.binary64 sign mantissa exponent accuracy ≠ .notANumber :=
  ofMantissa_ne_notANumber _ _ _

theorem normalize_ne_notANumber (mantissa exponent : Int) (sign : Sign) :
    UnpackedFloat.normalize Format.binary64 mantissa exponent sign ≠ .notANumber := by
  unfold UnpackedFloat.normalize
  split
  · exact roundWithAccuracy_ne_notANumber _ _ _ _
  · exact nofun
  · exact roundWithAccuracy_ne_notANumber _ _ _ _

theorem add_ne_notANumber
    {left right : UnpackedFloat}
    (number : left ≠ .notANumber)
    (rightUnpacked : IsUnpacked right) :
    UnpackedFloat.add Format.binary64 left right ≠ .notANumber := by
  cases left with
  | notANumber => exact absurd rfl number
  | infinity sign => cases rightUnpacked <;> exact nofun
  | zero sign =>
      cases rightUnpacked with
      | zero other =>
          unfold UnpackedFloat.add
          dsimp only
          split <;> exact nofun
      | finite => exact nofun
  | finite sign mantissa exponent positive =>
      cases rightUnpacked with
      | zero => exact nofun
      | finite => exact normalize_ne_notANumber _ _ _

theorem div_ne_notANumber
    {left : UnpackedFloat}
    (number : left ≠ .notANumber)
    (sign : Sign)
    {mantissa : Nat}
    {exponent : Int}
    (positive : 0 < mantissa) :
    UnpackedFloat.div Format.binary64 left (.finite sign mantissa exponent positive) ≠
      .notANumber := by
  cases left with
  | notANumber => exact absurd rfl number
  | infinity => exact nofun
  | zero => exact nofun
  | finite => exact roundWithAccuracy_ne_notANumber _ _ _ _

theorem isNaN_eq_false_iff (value : Float) :
    value.isNaN = false ↔ value.toModel.unpack ≠ .notANumber := by
  change value.toModel.unpack.isNaN = false ↔ _
  cases value.toModel.unpack with
  | notANumber => exact iff_of_false nofun fun number => number rfl
  | _ => exact iff_of_true rfl nofun

theorem isNaN_pack_of_ne {number : UnpackedFloat} (isNumber : number ≠ .notANumber) :
    (Float.Model.pack number).isNaN = false :=
  Bool.eq_false_iff.mpr fun isNaN => isNumber ((isNaN_pack_iff number).mp isNaN)

/-- What is a number without being finite is infinite. -/
theorem exists_infinity
    {value : Float}
    (number : value.isNaN = false)
    (notFinite : ¬value.isFinite = true) :
    ∃ sign, value.toModel.unpack = .infinity sign := by
  have isNumber := (isNaN_eq_false_iff value).mp number
  change ¬value.toModel.unpack.isFinite = true at notFinite
  generalize value.toModel.unpack = unpacked at isNumber notFinite
  cases unpacked with
  | notANumber => exact absurd rfl isNumber
  | infinity sign => exact ⟨sign, rfl⟩
  | zero sign => exact absurd rfl notFinite
  | finite sign mantissa exponent positive => exact absurd rfl notFinite

/-- A positive finite double is a positive mantissa at an exponent. -/
theorem exists_finite_of_isDivisor {divisor : Float} (accepted : isDivisor divisor = true) :
    ∃ mantissa exponent, ∃ positive : 0 < mantissa, -1074 ≤ exponent ∧
      divisor.toModel.unpack = .finite .positive mantissa exponent positive := by
  obtain ⟨finite, above⟩ := Bool.and_eq_true_iff.mp accepted
  have isAbove : (0 : Float).lt divisor = true := of_decide_eq_true above
  have less : (UnpackedFloat.zero .positive).compare divisor.toModel.unpack = some .lt :=
    eq_of_beq (of_decide_eq_true isAbove)
  have unpacked := isUnpacked_of_isFinite finite
  generalize divisor.toModel.unpack = number at less unpacked
  cases unpacked with
  | zero sign => cases less
  | finite sign mantissa exponent positive small low high =>
      cases sign with
      | negative => cases less
      | positive => exact ⟨mantissa, exponent, positive, low, rfl⟩

/-! ## Sums and quotients of doubles -/

section

variable {sum value divisor : Float}

theorem isNaN_add
    (number : sum.isNaN = false)
    (finite : value.isFinite = true) :
    (sum + value).isNaN = false :=
  isNaN_pack_of_ne (add_ne_notANumber ((isNaN_eq_false_iff sum).mp number)
    (isUnpacked_of_isFinite finite))

/-- Adding a finite double gives a finite one exactly if the exact sum is below the limit. -/
theorem isFinite_add_iff
    (number : sum.isNaN = false)
    (finite : value.isFinite = true) :
    (sum + value).isFinite = true ↔
      sum.isFinite = true ∧ (units sum + units value).natAbs < limit := by
  refine (isFinite_pack_iff _).trans ?_
  have unpacked := isUnpacked_of_isFinite finite
  by_cases sumFinite : sum.isFinite = true
  · rw [and_iff_right sumFinite]
    exact fits_add_iff (isUnpacked_of_isFinite sumFinite) unpacked
  · obtain ⟨sign, infinite⟩ := exists_infinity number sumFinite
    refine iff_of_false ?_ fun both => sumFinite both.1
    rw [infinite]
    generalize value.toModel.unpack = other at unpacked
    cases unpacked <;> exact id

theorem isNaN_div
    (number : sum.isNaN = false)
    (accepted : isDivisor divisor = true) :
    (sum / divisor).isNaN = false := by
  obtain ⟨mantissa, exponent, positive, _, unpacked⟩ := exists_finite_of_isDivisor accepted
  have isNumber := @div_ne_notANumber _ ((isNaN_eq_false_iff sum).mp number) .positive _
    exponent positive
  rw [← unpacked] at isNumber
  exact isNaN_pack_of_ne isNumber

/-- Dividing by a divisor gives a finite double exactly if the exact quotient is below the
limit. -/
theorem isFinite_div_iff
    (number : sum.isNaN = false)
    (accepted : isDivisor divisor = true) :
    (sum / divisor).isFinite = true ↔
      sum.isFinite = true ∧
        (units sum).natAbs * 2 ^ 1074 < limit * (units divisor).natAbs := by
  refine (isFinite_pack_iff _).trans ?_
  obtain ⟨mantissa, exponent, positive, low, unpacked⟩ := exists_finite_of_isDivisor accepted
  rw [units, units, unpacked]
  by_cases sumFinite : sum.isFinite = true
  · rw [and_iff_right sumFinite]
    exact fits_div_iff_of_isUnpacked (isUnpacked_of_isFinite sumFinite) .positive positive low
  · obtain ⟨sign, infinite⟩ := exists_infinity number sumFinite
    refine iff_of_false ?_ fun both => sumFinite both.1
    rw [infinite]
    exact id

end

/-! ## Texts -/

section

open Decimal (Layout magnitude)
open Json (IsNumeric Numeral)

variable {value : Float} {layout : Layout}

theorem exponentField_toBits (value : Float) :
    exponentField value.toModel.toBits.toBitVec =
      value.toBits.toNat % Nat.pow 2 63 / Nat.pow 2 52 :=
  exponentField_eq _

theorem fractionField_toBits (value : Float) :
    fractionField value.toModel.toBits.toBitVec =
      value.toBits.toNat % Nat.pow 2 63 % Nat.pow 2 52 :=
  fractionField_eq _

theorem exists_magnitude_of_isFinite (finite : value.isFinite = true) :
    ∃ significand exponent, magnitude value = .finite significand exponent := by
  have notFull := (unpacks_unpack value.toModel.toBits.toBitVec).isFinite_iff.mp finite
  rw [exponentField_toBits] at notFull
  unfold magnitude
  dsimp only
  rw [if_neg notFull]
  split
  · exact ⟨_, _, rfl⟩
  · exact ⟨_, _, rfl⟩

theorem magnitude_of_not_isFinite
    (number : value.isNaN = false)
    (notFinite : ¬value.isFinite = true) :
    magnitude value = .infinite := by
  have unpacks := unpacks_unpack value.toModel.toBits.toBitVec
  have full := not_ne_iff.mp fun different => notFinite (unpacks.isFinite_iff.mpr different)
  have empty := not_ne_iff.mp fun marked =>
    (Bool.eq_false_iff.mp number) (unpacks.isNaN_iff.mpr ⟨full, marked⟩)
  rw [exponentField_toBits] at full
  rw [fractionField_toBits] at empty
  unfold magnitude
  dsimp only
  rw [if_pos full, if_pos empty]

/-- A number is written as a numeral if it is finite, and as infinite otherwise. -/
theorem write_cases (numeric : IsNumeric layout) (number : value.isNaN = false) :
    value.isFinite = true ∧ Numeral (layout.write value).toList ∨
      value.isFinite = false ∧
        (layout.write value = layout.infinite ∨ layout.write value = layout.negativeInfinite) := by
  cases finite : value.isFinite with
  | true =>
      obtain ⟨significand, exponent, size⟩ := exists_magnitude_of_isFinite finite
      exact .inl ⟨rfl, Json.numeral_write numeric size⟩
  | false =>
      refine .inr ⟨rfl, ?_⟩
      unfold Layout.write
      rw [magnitude_of_not_isFinite number (Bool.eq_false_iff.mp finite)]
      dsimp only
      split
      · exact .inr rfl
      · exact .inl rfl

end

end Double
end CompositeIndex
