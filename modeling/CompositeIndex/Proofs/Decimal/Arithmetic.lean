import CompositeIndex.Proofs.Decimal.Nearest

/-!
# Sums and products of doubles

The exact sum, difference or product of two finite doubles is rounded once, whatever their signs.
Rounding never leaves the bounds that doubles set: what is at most as large as some double is
rounded to something that is at most as large.
-/

namespace CompositeIndex
namespace Double

open Float.Model Float.Model.UnpackedFloat

/-! ## Rounding with a sign -/

theorem neg_carried (whole : Nat) (exponent : ℤ) :
    (carried .positive whole exponent).neg = carried .negative whole exponent := by
  unfold carried ofMantissa
  by_cases isFull : whole = 2 ^ 53
  · rw [if_pos isFull, if_pos isFull, dif_neg (by decide), dif_neg (by decide)]
    rfl
  · rw [if_neg isFull, if_neg isFull]
    by_cases isZero : whole = 0
    · rw [dif_pos isZero, dif_pos isZero]
      rfl
    · rw [dif_neg isZero, dif_neg isZero]
      rfl

/-- A number with a sign is rounded as its size is. -/
theorem RoundsAt.isNearest_apply
    {number : ℚ} {exponent : ℤ} {whole : Nat}
    (rounds : RoundsAt number exponent whole)
    (sign : Sign) :
    IsNearest (sign.apply 1 * number)
      (.ofModel (Float.Model.pack (carried sign whole exponent))) := by
  cases sign with
  | positive =>
      rw [Sign.apply, Int.cast_one, one_mul]
      exact rounds.isNearest
  | negative =>
      rw [Sign.apply, Int.cast_neg, Int.cast_one, neg_one_mul]
      have fits_iff := rounds.fits_iff .negative
      rw [← abs_of_nonneg rounds.nonneg, ← abs_neg] at fits_iff
      by_cases fits : Fits (carried .negative whole exponent)
      · have sizeFits : Fits (carried .positive whole exponent) := by
          rwa [fits_carried_iff] at fits ⊢
        have unpacked := unpack_pack (rounds.isCanonical sizeFits)
        have isNegation :
            Float.ofModel (Float.Model.pack (carried .negative whole exponent)) =
              -ofRounded whole exponent := by
          rw [← neg_carried, ← unpacked]
          rfl
        rw [isNegation]
        exact rounds.isNearest.neg
      · exact .infinite (not_lt.mp (mt fits_iff.mpr fits))
          (isInf_of_not_isFinite (isNaN_pack_of_ne (carried_ne_notANumber _ _ _))
            (mt (isFinite_pack_iff _).mp fits))

/-! ## Doubles by their units -/

theorem toRat_zero : toRat 0 = 0 := by
  rw [toRat, (by decide +kernel : units 0 = 0), Int.cast_zero, zero_div]

theorem toRat_one : toRat 1 = 1 := by
  rw [toRat, (by decide +kernel : units 1 = (2 ^ 1074 : Nat)), Int.cast_natCast, Nat.cast_pow,
    Nat.cast_ofNat]
  exact div_self (by positivity)

theorem toRat_mul_eq
    {value other : Float} {factor : ℤ}
    (isMultiple : units value * factor = units other) :
    toRat value * factor = toRat other := by
  rw [toRat, toRat, ← isMultiple, Int.cast_mul, div_mul_eq_mul_div]

theorem toRat_le_of_units_le {value other : Float} (atMost : units value ≤ units other) :
    toRat value ≤ toRat other := by
  rw [toRat, toRat]
  exact div_le_div_of_nonneg_right (by exact_mod_cast atMost) (by positivity)

/-- A positive double is finite, since only finite ones stand for a number other than zero. -/
theorem isFinite_of_toRat_pos {value : Float} (above : 0 < toRat value) :
    value.isFinite = true := by
  obtain ⟨mantissa, exponent, positive, -, unpacked, -⟩ := exists_finite_of_toRat_pos above
  change value.toModel.unpack.isFinite = true
  rw [unpacked]
  rfl

/-! ## Rounding once -/

theorem abs_toRat_mul_lt_limit {value : Float} (finite : value.isFinite = true) :
    |toRat value| * 2 ^ 1074 < limit := by
  have below := natAbs_unitsOf_lt (isUnpacked_of_isFinite finite)
  rw [toRat, abs_div, abs_of_pos (by positivity : (0 : ℚ) < 2 ^ 1074),
    div_mul_cancel₀ _ (by positivity), ← Int.cast_abs, Int.abs_eq_natAbs]
  exact_mod_cast below

/-- A finite double is nearest to what it stands for. -/
theorem isNearest_self {value : Float} (finite : value.isFinite = true) :
    IsNearest (toRat value) value := by
  refine .finite (abs_toRat_mul_lt_limit finite)
    ⟨finite, fun other _ => ?_, fun other _ different equal => ?_⟩
  · rw [sub_self, abs_zero]
    exact abs_nonneg _
  · rw [sub_self, abs_zero, abs_eq_zero, sub_eq_zero] at equal
    exact absurd equal.symm different

/-- What is packed without a loss is not rounded. -/
theorem isNearest_pack
    {number : UnpackedFloat}
    (canonical : IsCanonical number)
    (fits : Fits number) :
    IsNearest (unitsOf number / 2 ^ 1074) (.ofModel (Float.Model.pack number)) := by
  have finite : (Float.ofModel (Float.Model.pack number)).isFinite = true :=
    (isFinite_pack_iff number).mpr fits
  have isSelf := isNearest_self finite
  rwa [toRat, units, unpack_pack canonical] at isSelf

/-! ## Sums -/

/-- The size of a number is rounded once, and the sign is kept. -/
theorem isNearest_round
    (sign : Sign)
    {mantissa : Nat}
    (positive : 0 < mantissa)
    (exponent : ℤ) :
    IsNearest (sign.apply 1 * (mantissa * 2 ^ exponent))
      (.ofModel (Float.Model.pack
        (UnpackedFloat.round Format.binary64 sign mantissa exponent))) := by
  obtain ⟨whole, rounds, isRounded⟩ := exists_round_eq_carried sign positive exponent
  rw [isRounded]
  exact rounds.isNearest_apply sign

/-- A mantissa with a sign at an exponent is rounded once. -/
theorem isNearest_normalize (mantissa exponent : ℤ) (zeroSign : Sign) :
    IsNearest (mantissa * 2 ^ exponent)
      (.ofModel (Float.Model.pack
        (UnpackedFloat.normalize Format.binary64 mantissa exponent zeroSign))) := by
  unfold UnpackedFloat.normalize
  rcases Int.lt_trichotomy mantissa 0 with negative | rfl | positive
  · rw [Int.compare_eq_lt.mpr negative]
    dsimp only
    have nearest := isNearest_round .negative (by omega : 0 < (-mantissa).toNat) exponent
    have isSize : (((-mantissa).toNat : ℕ) : ℚ) = -mantissa := by
      exact_mod_cast Int.toNat_of_nonneg (by omega : 0 ≤ -mantissa)
    rwa [isSize, Sign.apply, Int.cast_neg, Int.cast_one, neg_one_mul, neg_mul, neg_neg] at nearest
  · have isZero := isNearest_pack (.zero zeroSign) trivial
    rw [unitsOf_zero, Int.cast_zero, zero_div] at isZero
    rw [Int.cast_zero, zero_mul]
    exact isZero
  · rw [Int.compare_eq_gt.mpr positive]
    dsimp only
    have nearest := isNearest_round .positive (by omega : 0 < mantissa.toNat) exponent
    have isSize : ((mantissa.toNat : ℕ) : ℚ) = mantissa := by
      exact_mod_cast Int.toNat_of_nonneg positive.le
    rwa [isSize, Sign.apply, Int.cast_one, one_mul] at nearest

/-- The exact sum of what two doubles are unpacked to is rounded once. -/
theorem isNearest_pack_add
    {left right : UnpackedFloat}
    (leftCanonical : IsCanonical left)
    (rightCanonical : IsCanonical right)
    (leftFits : Fits left)
    (rightFits : Fits right) :
    IsNearest (unitsOf left / 2 ^ 1074 + unitsOf right / 2 ^ 1074)
      (.ofModel (Float.Model.pack (UnpackedFloat.add Format.binary64 left right))) := by
  cases leftCanonical with
  | infinity => cases leftFits
  | zero first =>
      rw [unitsOf_zero, Int.cast_zero, zero_div, zero_add]
      cases rightCanonical with
      | infinity => cases rightFits
      | zero second =>
          have isZero (sign : Sign) := isNearest_pack (.zero sign) trivial
          unfold UnpackedFloat.add
          dsimp only
          split
          · exact isZero first
          · exact isZero .positive
      | finite positive small low high long =>
          exact isNearest_pack (.finite positive small low high long) rightFits
  | @finite first mantissa exponent positive small low high long =>
      cases rightCanonical with
      | infinity => cases rightFits
      | zero second =>
          rw [unitsOf_zero, Int.cast_zero, zero_div, add_zero]
          exact isNearest_pack (.finite positive small low high long) leftFits
      | @finite second other power otherPositive otherSmall otherLow otherHigh otherLong =>
          have least : -1074 ≤ min exponent power := le_min low otherLow
          have left := apply_shiftLeft_mul first mantissa least (min_le_left exponent power)
          have right := apply_shiftLeft_mul second other least (min_le_right exponent power)
          have scale : (2 : ℚ) ^ min exponent power =
              2 ^ (min exponent power + 1074).toNat / 2 ^ 1074 := by
            rw [← zpow_natCast, ← zpow_natCast, ← zpow_sub₀ two_ne_zero]
            congr 1
            omega
          have nearest := isNearest_normalize
            (first.apply (mantissa <<< (exponent - min exponent power).toNat : Nat) +
              second.apply (other <<< (power - min exponent power).toNat : Nat))
            (min exponent power) .positive
          have isSum :
              ((first.apply (mantissa <<< (exponent - min exponent power).toNat : Nat) +
                  second.apply (other <<< (power - min exponent power).toNat : Nat) : ℤ) : ℚ) *
                2 ^ min exponent power =
              unitsOf (.finite first mantissa exponent positive) / 2 ^ 1074 +
                unitsOf (.finite second other power otherPositive) / 2 ^ 1074 := by
            rw [unitsOf_finite, unitsOf_finite, ← left, ← right, scale]
            generalize (2 : ℚ) ^ 1074 = unit
            push_cast
            ring
          rw [isSum] at nearest
          exact nearest

/-- Subtracting is adding the negation. -/
theorem unpacked_sub_eq (left right : UnpackedFloat) :
    UnpackedFloat.sub Format.binary64 left right =
      UnpackedFloat.add Format.binary64 left right.neg := by
  cases left with
  | notANumber => rfl
  | infinity | zero => cases right <;> rfl
  | finite first =>
      cases right with
      | finite second =>
          cases second with
          | positive => rfl
          | negative =>
              exact congrArg
                (fun mantissa => UnpackedFloat.normalize Format.binary64 mantissa _ .positive)
                (Int.sub_neg _ _)
      | _ => rfl

/-! ## Products -/

/-- The exact product of what two doubles are unpacked to is rounded once. -/
theorem isNearest_pack_mul
    {left right : UnpackedFloat}
    (leftCanonical : IsCanonical left)
    (rightCanonical : IsCanonical right)
    (leftFits : Fits left)
    (rightFits : Fits right) :
    IsNearest (unitsOf left / 2 ^ 1074 * (unitsOf right / 2 ^ 1074))
      (.ofModel (Float.Model.pack (UnpackedFloat.mul Format.binary64 left right))) := by
  have isZero (sign : Sign) := isNearest_pack (.zero sign) trivial
  simp only [unitsOf_zero, Int.cast_zero, zero_div] at isZero
  cases leftCanonical with
  | infinity => cases leftFits
  | zero first =>
      rw [unitsOf_zero, Int.cast_zero, zero_div, zero_mul]
      cases rightCanonical with
      | infinity => cases rightFits
      | zero second => exact isZero (first * second)
      | @finite second => exact isZero (first * second)
  | @finite first mantissa exponent positive small low high long =>
      cases rightCanonical with
      | infinity => cases rightFits
      | zero second =>
          rw [unitsOf_zero, Int.cast_zero, zero_div, mul_zero]
          exact isZero (first * second)
      | @finite second other power otherPositive otherSmall otherLow otherHigh otherLong =>
          have notShort := @IsCanonical.mul_long _ _ first second _ _ _ _
            (.finite positive small low high long)
            (.finite otherPositive otherSmall otherLow otherHigh otherLong)
          obtain ⟨target, whole, rounds, product⟩ :=
            exists_mul_eq_carried first second exponent power positive otherPositive notShort
          have nearest := rounds.isNearest_apply (first * second)
          have isProduct :
              ((first * second).apply 1 : ℚ) * (mantissa * 2 ^ exponent * (other * 2 ^ power)) =
                first.apply mantissa * 2 ^ exponent * (second.apply other * 2 ^ power) := by
            cases first <;> cases second <;> simp [Sign.apply]
          rw [product, unitsOf_div first positive low, unitsOf_div second otherPositive otherLow,
            ← isProduct]
          exact nearest

/-! ## Arithmetic of doubles -/

section

variable {value other : Float}

theorem fits_unpack (finite : value.isFinite = true) : Fits value.toModel.unpack := by
  have isUnpacked := isUnpacked_of_isFinite finite
  generalize value.toModel.unpack = number at isUnpacked
  cases isUnpacked with
  | zero => trivial
  | finite sign mantissa exponent positive small low high => exact high

/-- The exact sum of finite doubles is rounded once. -/
theorem isNearest_add (finite : value.isFinite = true) (otherFinite : other.isFinite = true) :
    IsNearest (toRat value + toRat other) (value + other) :=
  isNearest_pack_add (isCanonical_unpack (isNaN_of_isFinite finite))
    (isCanonical_unpack (isNaN_of_isFinite otherFinite)) (fits_unpack finite)
    (fits_unpack otherFinite)

/-- The exact difference of finite doubles is rounded once. -/
theorem isNearest_sub (finite : value.isFinite = true) (otherFinite : other.isFinite = true) :
    IsNearest (toRat value - toRat other) (value - other) := by
  have number := isNaN_of_isFinite otherFinite
  have isSum : value - other = value + -other := by
    change Float.ofModel (Float.Model.pack
      (UnpackedFloat.sub Format.binary64 value.toModel.unpack other.toModel.unpack)) =
        Float.ofModel (Float.Model.pack
          (UnpackedFloat.add Format.binary64 value.toModel.unpack (-other).toModel.unpack))
    rw [unpacked_sub_eq, unpack_neg number]
  rw [isSum, sub_eq_add_neg, ← toRat_neg number]
  exact isNearest_add finite ((isFinite_neg number).trans otherFinite)

/-- The exact product of finite doubles is rounded once. -/
theorem isNearest_mul_of_isFinite
    (finite : value.isFinite = true)
    (otherFinite : other.isFinite = true) :
    IsNearest (toRat value * toRat other) (value * other) :=
  isNearest_pack_mul (isCanonical_unpack (isNaN_of_isFinite finite))
    (isCanonical_unpack (isNaN_of_isFinite otherFinite)) (fits_unpack finite)
    (fits_unpack otherFinite)

end

/-! ## Bounds -/

section

variable {number : ℚ} {value bound : Float}

/-- What is at most a double is not rounded to more. -/
theorem IsClosest.toRat_le
    (closest : IsClosest number value)
    (finite : bound.isFinite = true)
    (atMost : number ≤ toRat bound) :
    toRat value ≤ toRat bound := by
  have near := closest.nearest bound finite
  have far := neg_le_abs (number - toRat value)
  rw [abs_of_nonpos (sub_nonpos.mpr atMost)] at near
  linarith

/-- What is at least a double is not rounded to less. -/
theorem IsClosest.le_toRat
    (closest : IsClosest number value)
    (finite : bound.isFinite = true)
    (atLeast : toRat bound ≤ number) :
    toRat bound ≤ toRat value := by
  have near := closest.nearest bound finite
  have far := le_abs_self (number - toRat value)
  rw [abs_of_nonneg (sub_nonneg.mpr atLeast)] at near
  linarith

/-- What is at most as large as a double is rounded to a finite double. -/
theorem IsNearest.isClosest
    (nearest : IsNearest number value)
    (finite : bound.isFinite = true)
    (atMost : |number| ≤ toRat bound) :
    IsClosest number value := by
  cases nearest with
  | finite below closest => exact closest
  | infinite above isInfinite =>
      have scaled := mul_le_mul_of_nonneg_right (atMost.trans (le_abs_self _))
        (by positivity : (0 : ℚ) ≤ 2 ^ 1074)
      exact absurd (above.trans scaled) (not_le.mpr (abs_toRat_mul_lt_limit finite))

/-- What is at most as large as a double is rounded to a double that is at most as large. -/
theorem IsNearest.abs_toRat_le
    (nearest : IsNearest number value)
    (finite : bound.isFinite = true)
    (atMost : |number| ≤ toRat bound) :
    value.isFinite = true ∧ |toRat value| ≤ toRat bound := by
  have closest := nearest.isClosest finite atMost
  have isNumber := isNaN_of_isFinite finite
  obtain ⟨above, below⟩ := abs_le.mp atMost
  rw [← toRat_neg isNumber] at above
  have lower := closest.le_toRat ((isFinite_neg isNumber).trans finite) above
  rw [toRat_neg isNumber] at lower
  exact ⟨closest.isFinite, abs_le.mpr ⟨lower, closest.toRat_le finite below⟩⟩

end

end Double
end CompositeIndex
