import CompositeIndex.Proofs.Decimal.Overflow
import Mathlib.Algebra.Order.Field.Rat
import Mathlib.Tactic.FieldSimp
import Mathlib.Tactic.NormNum
import Mathlib.Tactic.Positivity

/-!
# Doubles as rational numbers

A finite double is a rational number with a sign. Its mantissa is as long as it can be, which makes
the unpacked form unique: packing it and unpacking it again changes nothing, and two doubles of one
value and one sign are the same.
-/

namespace CompositeIndex
namespace Double

open Float.Model Float.Model.UnpackedFloat
open Decimal (isNegative)

/-! ## Signs -/

/-- The sign of a number; what is no number counts as positive. -/
def signOf : UnpackedFloat → Sign
  | .infinity sign => sign
  | .notANumber => .positive
  | .zero sign => sign
  | .finite sign _ _ _ => sign

theorem sign_eq_of_iff {left right : Sign} (same : left = .negative ↔ right = .negative) :
    left = right := by
  cases left with
  | negative => exact (same.mp rfl).symm
  | positive =>
      cases right with
      | negative => exact same.mpr rfl
      | positive => rfl

theorem toNat_packComponents
    (sign : Sign)
    (exponent : BitVec 11)
    (mantissa : BitVec 52) :
    (packComponents Format.binary64 sign exponent mantissa).toNat =
      sign.toBitVec.toNat * 2 ^ 63 + exponent.toNat * 2 ^ 52 + mantissa.toNat := by
  have packed : packComponents Format.binary64 sign exponent mantissa =
      sign.toBitVec ++ exponent ++ mantissa := rfl
  rw [packed, BitVec.toNat_append, ← Nat.shiftLeft_add_eq_or_of_lt (BitVec.isLt _),
    BitVec.toNat_append, ← Nat.shiftLeft_add_eq_or_of_lt (BitVec.isLt _), Nat.shiftLeft_eq,
    Nat.shiftLeft_eq]
  omega

theorem packComponents_marked_iff
    (sign : Sign)
    (exponent : BitVec 11)
    (mantissa : BitVec 52) :
    2 ^ 63 ≤ (packComponents Format.binary64 sign exponent mantissa).toNat ↔ sign = .negative := by
  have exponentBound := exponent.isLt
  have mantissaBound := mantissa.isLt
  rw [toNat_packComponents]
  cases sign with
  | negative =>
      have bit : Sign.negative.toBitVec.toNat = 1 := rfl
      exact iff_of_true (by omega) rfl
  | positive =>
      have bit : Sign.positive.toBitVec.toNat = 0 := rfl
      exact iff_of_false (by omega) nofun

theorem ofBitVec_unpackSign_iff (bits : BitVec 64) :
    Sign.ofBitVec (@unpackSign Format.binary64 bits) = .negative ↔ 2 ^ 63 ≤ bits.toNat := by
  have field : (@unpackSign Format.binary64 bits).toNat = (bits.toNat >>> 63) % 2 ^ 1 := rfl
  have bound : bits.toNat < 2 ^ 64 := bits.isLt
  rw [Nat.shiftRight_eq_div_pow] at field
  unfold Sign.ofBitVec
  split
  next unmarked =>
    have zero : (@unpackSign Format.binary64 bits).toNat = 0 := congrArg BitVec.toNat unmarked
    exact iff_of_false nofun (by omega)
  next marked =>
    have notZero : (@unpackSign Format.binary64 bits).toNat ≠ 0 :=
      fun zero => marked (BitVec.toNat_inj.mp zero)
    exact iff_of_true rfl (by omega)

theorem signOf_unpack_iff
    {bits : BitVec 64}
    (number : UnpackedFloat.unpack Format.binary64 bits ≠ .notANumber) :
    signOf (UnpackedFloat.unpack Format.binary64 bits) = .negative ↔ 2 ^ 63 ≤ bits.toNat := by
  rw [← ofBitVec_unpackSign_iff]
  unfold UnpackedFloat.unpack at number ⊢
  dsimp only at number ⊢
  by_cases full : @unpackExponent Format.binary64 bits = -1#11
  · rw [if_pos full] at number ⊢
    by_cases empty : @unpackMantissa Format.binary64 bits = 0#52
    · rw [if_pos empty]
      rfl
    · rw [if_neg empty] at number
      exact absurd rfl number
  · rw [if_neg full]
    by_cases least : @unpackExponent Format.binary64 bits = 0#11
    · rw [if_pos least]
      by_cases empty : @unpackMantissa Format.binary64 bits = 0#52
      · rw [dif_pos empty]
        rfl
      · rw [dif_neg empty]
        rfl
    · rw [if_neg least]
      rfl

theorem isNegative_iff {value : Float} (number : value.isNaN = false) :
    isNegative value = true ↔ signOf value.toModel.unpack = .negative := by
  have isSign := signOf_unpack_iff ((isNaN_eq_false_iff value).mp number)
  exact decide_eq_true_iff.trans isSign.symm

/-! ## Packing and unpacking -/

/-- A number as it is unpacked from a double: its mantissa is as long as it can be. -/
inductive IsCanonical : UnpackedFloat → Prop
  | infinity (sign : Sign) : IsCanonical (.infinity sign)
  | zero (sign : Sign) : IsCanonical (.zero sign)
  | finite
      {sign : Sign} {mantissa : Nat} {exponent : Int}
      (positive : 0 < mantissa)
      (small : mantissa < 2 ^ 53)
      (low : -1074 ≤ exponent)
      (high : exponent ≤ 971)
      (long : 2 ^ 52 ≤ mantissa ∨ exponent = -1074) :
      IsCanonical (.finite sign mantissa exponent positive)

section

variable {number : UnpackedFloat}

theorem IsCanonical.ne_notANumber (canonical : IsCanonical number) : number ≠ .notANumber := by
  rintro rfl
  cases canonical

theorem Unpacks.isCanonical
    {exponent fraction : Nat}
    (unpacks : Unpacks exponent fraction number)
    (small : fraction < 2 ^ 52)
    (isNumber : number ≠ .notANumber) :
    IsCanonical number := by
  cases unpacks with
  | infinity sign => exact .infinity sign
  | notANumber => exact absurd rfl isNumber
  | zero sign => exact .zero sign
  | subnormal sign positive power isPower =>
      exact .finite positive (by omega) (by omega) (by omega) (.inr isPower)
  | normal sign mantissa positive isMantissa above below =>
      exact .finite positive (by omega) (by omega) (by omega) (.inl (by omega))

/-- The fields of a double and its sign make up the number. -/
theorem Unpacks.eq
    {exponent fraction : Nat} {other : UnpackedFloat}
    (left : Unpacks exponent fraction number)
    (right : Unpacks exponent fraction other)
    (sameSign : signOf number = signOf other) :
    number = other := by
  cases left with
  | infinity sign full empty =>
      cases right <;> first | omega | exact congrArg _ sameSign
  | notANumber full marked =>
      cases right <;> first | omega | rfl
  | zero sign least empty =>
      cases right <;> first | omega | exact congrArg _ sameSign
  | subnormal sign positive power isPower least =>
      cases right with
      | subnormal other otherPositive otherPower isOther =>
          obtain rfl : sign = other := sameSign
          rw [isPower, isOther]
      | _ => omega
  | normal sign mantissa positive isMantissa above below =>
      cases right with
      | normal other otherMantissa otherPositive isOther =>
          obtain rfl : sign = other := sameSign
          obtain rfl : mantissa = otherMantissa := isMantissa.trans isOther.symm
          rfl
      | _ => omega

/-- The number makes up the fields of a double. -/
theorem Unpacks.fields_eq
    {exponent fraction otherExponent otherFraction : Nat} {other : UnpackedFloat}
    (left : Unpacks exponent fraction number)
    (right : Unpacks otherExponent otherFraction other)
    (small : fraction < 2 ^ 52)
    (otherSmall : otherFraction < 2 ^ 52)
    (isNumber : number ≠ .notANumber)
    (same : number = other) :
    exponent = otherExponent ∧ fraction = otherFraction := by
  cases left with
  | infinity sign full empty =>
      cases right <;> first | omega | cases same
  | notANumber full marked => exact absurd rfl isNumber
  | zero sign least empty =>
      cases right <;> first | omega | cases same
  | subnormal sign positive power isPower least =>
      cases right with
      | subnormal | normal =>
          injection same
          omega
      | _ => cases same
  | normal sign mantissa positive isMantissa above below =>
      cases right with
      | subnormal | normal =>
          injection same
          omega
      | _ => cases same

theorem unpacks_pack (canonical : IsCanonical number) :
    Unpacks (exponentField (UnpackedFloat.pack Format.binary64 number))
      (fractionField (UnpackedFloat.pack Format.binary64 number)) number := by
  cases canonical with
  | infinity sign =>
      exact .infinity sign (exponentField_packComponents ..) (fractionField_packComponents ..)
  | zero sign =>
      exact .zero sign (exponentField_packComponents ..) (fractionField_packComponents ..)
  | @finite sign mantissa exponent positive small low high long =>
      have short : mantissa.log2 + 1 = 53 ↔ 2 ^ 52 ≤ mantissa := by
        rw [← Nat.le_log2 positive.ne']
        have bound := (Nat.log2_lt positive.ne').mpr small
        omega
      rw [pack_of_low positive high]
      by_cases leading : 2 ^ 52 ≤ mantissa
      · rw [if_pos (short.mpr leading), exponentField_packComponents,
          fractionField_packComponents, BitVec.toNat_ofNat, BitVec.toNat_ofNat]
        have isExponent : exponent = ((exponent + 1023 + 52).toNat % 2 ^ 11 : Nat) - 1075 := by
          omega
        have unpacks := @Unpacks.normal ((exponent + 1023 + 52).toNat % 2 ^ 11)
          (mantissa % 2 ^ 52) sign mantissa positive (by omega) (by omega) (by omega)
        rwa [← isExponent] at unpacks
      · have isFraction : (BitVec.ofNat 52 mantissa).toNat = mantissa :=
          Nat.mod_eq_of_lt (by omega)
        rw [if_neg (mt short.mp leading), exponentField_packComponents,
          fractionField_packComponents, isFraction]
        exact .subnormal sign positive exponent (by omega) rfl

theorem exists_packComponents (isNumber : number ≠ .notANumber) :
    ∃ exponent mantissa, UnpackedFloat.pack Format.binary64 number =
      packComponents Format.binary64 (signOf number) exponent mantissa := by
  cases number with
  | notANumber => exact absurd rfl isNumber
  | infinity sign => exact ⟨_, _, rfl⟩
  | zero sign => exact ⟨_, _, rfl⟩
  | finite sign mantissa exponent positive =>
      rcases Int.lt_or_le 971 exponent with high | low
      · exact ⟨_, _, pack_of_high positive high⟩
      · rw [pack_of_low positive low]
        by_cases long : mantissa.log2 + 1 = 53
        · exact ⟨_, _, if_pos long⟩
        · exact ⟨_, _, if_neg long⟩

/-- Packing keeps the sign. -/
theorem isNegative_pack_iff (isNumber : number ≠ .notANumber) :
    isNegative (.ofModel (Float.Model.pack number)) = true ↔ signOf number = .negative := by
  obtain ⟨exponent, mantissa, packed⟩ := exists_packComponents isNumber
  refine decide_eq_true_iff.trans ?_
  change 2 ^ 63 ≤ (UnpackedFloat.pack Format.binary64 number).toNat ↔ _
  rw [packed]
  exact packComponents_marked_iff _ _ _

/-- A canonical number is packed without a loss. -/
theorem unpack_pack (canonical : IsCanonical number) :
    (Float.Model.pack number).unpack = number := by
  have isNumber := canonical.ne_notANumber
  have sameSign : signOf (Float.Model.pack number).unpack = .negative ↔
      signOf number = .negative := by
    rw [← isNegative_pack_iff isNumber]
    exact (isNegative_iff (isNaN_pack_of_ne isNumber)).symm
  exact (unpacks_unpack _).eq (unpacks_pack canonical) (sign_eq_of_iff sameSign)

end

section

variable {value other : Float}

theorem isCanonical_unpack (number : value.isNaN = false) : IsCanonical value.toModel.unpack :=
  (unpacks_unpack _).isCanonical (fractionField_lt _) ((isNaN_eq_false_iff value).mp number)

theorem isNaN_of_isFinite (finite : value.isFinite = true) : value.isNaN = false := by
  refine (isNaN_eq_false_iff value).mpr fun isNaN => ?_
  change value.toModel.unpack.isFinite = true at finite
  rw [isNaN] at finite
  cases finite

/-- Doubles that are unpacked to the same number are the same. -/
theorem eq_of_unpack_eq
    (number : value.isNaN = false)
    (same : value.toModel.unpack = other.toModel.unpack) :
    value = other := by
  have isNumber := (isNaN_eq_false_iff value).mp number
  have otherNumber : other.isNaN = false := (isNaN_eq_false_iff other).mpr (same ▸ isNumber)
  have sameFields := (unpacks_unpack value.toModel.toBits.toBitVec).fields_eq
    (unpacks_unpack other.toModel.toBits.toBitVec) (fractionField_lt _) (fractionField_lt _)
    isNumber same
  have marked : 2 ^ 63 ≤ value.toBits.toNat ↔ 2 ^ 63 ≤ other.toBits.toNat := by
    have sameSign := isNegative_iff number
    rw [same, ← isNegative_iff otherNumber] at sameSign
    exact decide_eq_true_iff.symm.trans (sameSign.trans decide_eq_true_iff)
  have bound := value.toBits.toNat_lt
  have otherBound := other.toBits.toNat_lt
  simp only [exponentField_eq, fractionField_eq] at sameFields
  have sameBits : value.toBits = other.toBits := by
    refine UInt64.toNat_inj.mp ?_
    change value.toBits.toNat % 2 ^ 63 / 2 ^ 52 = other.toBits.toNat % 2 ^ 63 / 2 ^ 52 ∧
      value.toBits.toNat % 2 ^ 63 % 2 ^ 52 = other.toBits.toNat % 2 ^ 63 % 2 ^ 52 at sameFields
    omega
  obtain ⟨⟨bits, valid⟩⟩ := value
  obtain ⟨⟨otherBits, otherValid⟩⟩ := other
  obtain rfl : bits = otherBits := sameBits
  rfl

end

/-- Only one double is not a number. -/
theorem eq_of_isNaN
    {value other : Float}
    (isNaN : value.isNaN = true)
    (otherIsNaN : other.isNaN = true) :
    value = other := by
  have isPacked {value : Float} (isNaN : value.isNaN = true) :
      value.toModel.toBits.toBitVec = packedNaN Format.binary64 := by
    obtain ⟨full, marked⟩ := (unpacks_unpack value.toModel.toBits.toBitVec).isNaN_iff.mp isNaN
    refine value.toModel.valid.eq_packedNaN (BitVec.toNat_inj.mp full) fun empty => marked ?_
    exact congrArg BitVec.toNat empty
  obtain ⟨⟨⟨bits⟩, valid⟩⟩ := value
  obtain ⟨⟨⟨otherBits⟩, otherValid⟩⟩ := other
  obtain rfl : bits = otherBits := (isPacked isNaN).trans (isPacked otherIsNaN).symm
  rfl

/-! ## Values -/

/-- The number that a finite double stands for. -/
def toRat (value : Float) : ℚ :=
  units value / 2 ^ 1074

/-- The mantissa of a number; zero and what is not finite have none. -/
def mantissaOf : UnpackedFloat → Nat
  | .finite _ mantissa _ _ => mantissa
  | _ => 0

/-- The last bit of a double is the last bit of its mantissa. -/
theorem toBits_mod_two {value : Float} (finite : value.isFinite = true) :
    value.toBits.toNat % 2 = mantissaOf value.toModel.unpack % 2 := by
  have unpacks := unpacks_unpack value.toModel.toBits.toBitVec
  have isFraction := fractionField_eq value.toModel.toBits.toBitVec
  change value.toModel.unpack.isFinite = true at finite
  change Unpacks _ _ value.toModel.unpack at unpacks
  change fractionField _ = value.toBits.toNat % 2 ^ 63 % 2 ^ 52 at isFraction
  generalize value.toModel.unpack = number at finite unpacks
  cases unpacks with
  | infinity => cases finite
  | notANumber => cases finite
  | zero sign least empty =>
      change _ = 0
      omega
  | subnormal =>
      change _ = fractionField _ % 2
      omega
  | normal sign mantissa positive isMantissa =>
      change _ = mantissa % 2
      omega

/-- What a finite number is, in units of the least positive double, is a whole number. -/
theorem unitsOf_div
    (sign : Sign)
    {mantissa : Nat} {exponent : Int}
    (positive : 0 < mantissa)
    (low : -1074 ≤ exponent) :
    (unitsOf (.finite sign mantissa exponent positive) : ℚ) / 2 ^ 1074 =
      sign.apply mantissa * 2 ^ exponent := by
  have power : (2 : ℚ) ^ exponent = 2 ^ (exponent + 1074).toNat / 2 ^ 1074 := by
    rw [← zpow_natCast, ← zpow_natCast, ← zpow_sub₀ two_ne_zero]
    congr 1
    omega
  rw [unitsOf_finite, power]
  cases sign with
  | positive => simp [Sign.apply, mul_div_assoc]
  | negative => simp [Sign.apply, neg_div, mul_div_assoc]

/-- A finite double is a mantissa of at most 53 bits with a sign, at an exponent. -/
theorem exists_toRat_eq {value : Float} (finite : value.isFinite = true) :
    ∃ mantissa exponent : ℤ, mantissa.natAbs < 2 ^ 53 ∧ -1074 ≤ exponent ∧
      toRat value = mantissa * 2 ^ exponent ∧
      value.toBits.toNat % 2 = mantissa.natAbs % 2 := by
  have isUnpacked := isUnpacked_of_isFinite finite
  have lastBit := toBits_mod_two finite
  unfold toRat units
  generalize value.toModel.unpack = number at isUnpacked lastBit
  cases isUnpacked with
  | zero sign => exact ⟨0, 0, by decide, by decide, by simp, lastBit⟩
  | finite sign mantissa exponent positive small low high =>
      refine ⟨sign.apply mantissa, exponent, ?_, low, unitsOf_div sign positive low, ?_⟩
      · rwa [natAbs_apply]
      · rwa [natAbs_apply]

/-- A positive double is unpacked to a positive mantissa at an exponent. -/
theorem exists_finite_of_toRat_pos {value : Float} (above : 0 < toRat value) :
    ∃ mantissa exponent, ∃ positive : 0 < mantissa,
      IsCanonical (.finite .positive mantissa exponent positive) ∧
        value.toModel.unpack = .finite .positive mantissa exponent positive ∧
        toRat value = mantissa * 2 ^ exponent := by
  have unpacks := unpacks_unpack value.toModel.toBits.toBitVec
  change Unpacks _ _ value.toModel.unpack at unpacks
  unfold toRat units at above ⊢
  have notZero : unitsOf value.toModel.unpack ≠ 0 := by
    intro zero
    rw [zero, Int.cast_zero, zero_div] at above
    exact lt_irrefl 0 above
  have isNumber : value.toModel.unpack ≠ .notANumber := by
    intro isNaN
    rw [isNaN] at notZero
    exact notZero rfl
  have canonical := unpacks.isCanonical (fractionField_lt _) isNumber
  generalize value.toModel.unpack = number at canonical above notZero
  cases canonical with
  | infinity => exact absurd rfl notZero
  | zero => exact absurd rfl notZero
  | @finite sign mantissa exponent positive small low high long =>
      rw [unitsOf_div sign positive low] at above ⊢
      cases sign with
      | positive =>
          exact ⟨mantissa, exponent, positive, .finite positive small low high long, rfl, rfl⟩
      | negative =>
          have nonneg : (0 : ℚ) ≤ mantissa * 2 ^ exponent :=
            mul_nonneg (Nat.cast_nonneg mantissa) (zpow_pos two_pos exponent).le
          simp only [Sign.apply, Int.cast_neg, Int.cast_natCast, neg_mul] at above
          linarith

section

variable {mantissa other : Nat} {exponent power : Int}

/-- Of two numbers with mantissas as long as they can be, the one with the lower exponent is
less. -/
theorem mul_two_pow_lt
    (small : mantissa < 2 ^ 53)
    (low : -1074 ≤ exponent)
    (less : exponent < power)
    (otherLong : 2 ^ 52 ≤ other ∨ power = -1074) :
    mantissa * 2 ^ (exponent + 1074).toNat < other * 2 ^ (power + 1074).toNat := by
  have leading : 2 ^ 52 ≤ other := otherLong.resolve_right (by omega)
  calc mantissa * 2 ^ (exponent + 1074).toNat
      < 2 * other * 2 ^ (exponent + 1074).toNat :=
        Nat.mul_lt_mul_of_pos_right (by omega) (Nat.two_pow_pos _)
    _ = other * 2 ^ ((exponent + 1074).toNat + 1) := by
        rw [Nat.pow_succ]
        ring
    _ ≤ other * 2 ^ (power + 1074).toNat :=
        Nat.mul_le_mul_left _ (Nat.pow_le_pow_right (by decide) (by omega))

theorem mantissa_unique
    (small : mantissa < 2 ^ 53)
    (otherSmall : other < 2 ^ 53)
    (low : -1074 ≤ exponent)
    (otherLow : -1074 ≤ power)
    (long : 2 ^ 52 ≤ mantissa ∨ exponent = -1074)
    (otherLong : 2 ^ 52 ≤ other ∨ power = -1074)
    (same : mantissa * 2 ^ (exponent + 1074).toNat = other * 2 ^ (power + 1074).toNat) :
    mantissa = other ∧ exponent = power := by
  rcases Int.lt_trichotomy exponent power with less | equal | greater
  · exact absurd same (mul_two_pow_lt small low less otherLong).ne
  · subst equal
    exact ⟨Nat.eq_of_mul_eq_mul_right (Nat.two_pow_pos _) same, rfl⟩
  · exact absurd same (mul_two_pow_lt otherSmall otherLow greater long).ne'

end

/-- A canonical finite number is its size with its sign. -/
theorem eq_of_unitsOf_eq
    {number other : UnpackedFloat}
    (canonical : IsCanonical number)
    (otherCanonical : IsCanonical other)
    (finite : number.isFinite = true)
    (otherFinite : other.isFinite = true)
    (sameUnits : (unitsOf number).natAbs = (unitsOf other).natAbs)
    (sameSign : signOf number = signOf other) :
    number = other := by
  have notZero {mantissa power : Nat} (positive : 0 < mantissa) : 0 ≠ mantissa * 2 ^ power :=
    (Nat.mul_pos positive (Nat.two_pow_pos _)).ne
  cases canonical with
  | infinity => cases finite
  | zero sign =>
      cases otherCanonical with
      | infinity => cases otherFinite
      | zero otherSign => exact congrArg _ sameSign
      | finite positive =>
          rw [natAbs_unitsOf_finite] at sameUnits
          exact absurd sameUnits (notZero positive)
  | @finite sign mantissa exponent positive small low high long =>
      rw [natAbs_unitsOf_finite] at sameUnits
      cases otherCanonical with
      | infinity => cases otherFinite
      | zero otherSign => exact absurd sameUnits.symm (notZero positive)
      | finite otherPositive otherSmall otherLow otherHigh otherLong =>
          rw [natAbs_unitsOf_finite] at sameUnits
          obtain ⟨rfl, rfl⟩ :=
            mantissa_unique small otherSmall low otherLow long otherLong sameUnits
          obtain rfl : sign = _ := sameSign
          rfl

/-- Finite doubles of one value and one sign are the same. -/
theorem eq_of_toRat_eq
    {value other : Float}
    (finite : value.isFinite = true)
    (otherFinite : other.isFinite = true)
    (same : toRat value = toRat other)
    (sameSign : isNegative value = isNegative other) :
    value = other := by
  have sameUnits : units value = units other := by
    have notZero : (2 : ℚ) ^ 1074 ≠ 0 := pow_ne_zero 1074 two_ne_zero
    have sameQuotient := (div_left_inj' notZero).mp same
    exact_mod_cast sameQuotient
  have number := isNaN_of_isFinite finite
  have otherNumber := isNaN_of_isFinite otherFinite
  refine eq_of_unpack_eq number (eq_of_unitsOf_eq (isCanonical_unpack number)
    (isCanonical_unpack otherNumber) finite otherFinite (congrArg Int.natAbs sameUnits)
    (sign_eq_of_iff ?_))
  rw [← isNegative_iff number, ← isNegative_iff otherNumber, sameSign]

/-! ## Negation -/

section

variable {number : UnpackedFloat} {value : Float}

theorem IsCanonical.neg (canonical : IsCanonical number) : IsCanonical number.neg := by
  cases canonical with
  | infinity sign => exact .infinity (-sign)
  | zero sign => exact .zero (-sign)
  | finite positive small low high long => exact .finite positive small low high long

theorem unpack_neg (isNumber : value.isNaN = false) :
    (-value).toModel.unpack = value.toModel.unpack.neg :=
  unpack_pack (isCanonical_unpack isNumber).neg

theorem isFinite_neg (isNumber : value.isNaN = false) : (-value).isFinite = value.isFinite := by
  change (-value).toModel.unpack.isFinite = value.toModel.unpack.isFinite
  rw [unpack_neg isNumber]
  cases value.toModel.unpack <;> rfl

theorem isInf_neg (isNumber : value.isNaN = false) : (-value).isInf = value.isInf := by
  change (-value).toModel.unpack.isInf = value.toModel.unpack.isInf
  rw [unpack_neg isNumber]
  cases value.toModel.unpack <;> rfl

theorem isNaN_neg (isNumber : value.isNaN = false) : (-value).isNaN = false := by
  change value.toModel.unpack.isNaN = false at isNumber
  change (-value).toModel.unpack.isNaN = false
  rw [unpack_neg isNumber]
  generalize value.toModel.unpack = number at isNumber ⊢
  cases number <;> first | rfl | cases isNumber

theorem neg_neg_of_isNaN (isNumber : value.isNaN = false) : -(-value) = value := by
  refine eq_of_unpack_eq (isNaN_neg (isNaN_neg isNumber)) ?_
  rw [unpack_neg (isNaN_neg isNumber), unpack_neg isNumber]
  cases value.toModel.unpack with
  | notANumber => rfl
  | infinity sign | zero sign | finite sign => cases sign <;> rfl

theorem signOf_neg_iff (isNumber : number ≠ .notANumber) :
    signOf number.neg = .negative ↔ signOf number ≠ .negative := by
  cases number with
  | notANumber => exact absurd rfl isNumber
  | infinity sign | zero sign | finite sign =>
      cases sign with
      | negative => exact iff_of_false nofun fun different => different rfl
      | positive => exact iff_of_true rfl nofun

theorem isNegative_neg (isNumber : value.isNaN = false) :
    isNegative (-value) = !isNegative value := by
  rw [Bool.eq_iff_iff, isNegative_iff (isNaN_neg isNumber), Bool.not_eq_true', ← Bool.not_eq_true,
    isNegative_iff isNumber, unpack_neg isNumber,
    signOf_neg_iff ((isNaN_eq_false_iff value).mp isNumber)]

theorem unitsOf_neg (number : UnpackedFloat) : unitsOf number.neg = -unitsOf number := by
  cases number with
  | finite sign mantissa exponent positive =>
      cases sign with
      | negative => exact (neg_neg _).symm
      | positive => rfl
  | _ => rfl

theorem toRat_neg (isNumber : value.isNaN = false) : toRat (-value) = -toRat value := by
  unfold toRat units
  rw [unpack_neg isNumber, unitsOf_neg, Int.cast_neg, neg_div]

theorem toBits_neg (finite : value.isFinite = true) :
    (-value).toBits.toNat % 2 = value.toBits.toNat % 2 := by
  have isNumber := isNaN_of_isFinite finite
  rw [toBits_mod_two finite, toBits_mod_two ((isFinite_neg isNumber).trans finite),
    unpack_neg isNumber]
  cases value.toModel.unpack <;> rfl

end

end Double
end CompositeIndex
