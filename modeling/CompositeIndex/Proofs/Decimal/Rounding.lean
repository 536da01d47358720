import CompositeIndex.Decimal.Shortest
import Mathlib.Algebra.Order.Group.Unbundled.Int
import Mathlib.Tactic.Linarith
import Mathlib.Tactic.Ring

/-!
# When rounding leads to infinity

A sum or a quotient of two doubles is computed exactly, with a mark for what lies behind its last
bit, and is then rounded to the nearest double. The mantissa together with the bit behind it
decides whether the rounded number can still be packed: it can if it is below the number half way
between the greatest double and the next power of two.
-/

namespace CompositeIndex
namespace Double

open Float.Model Float.Model.UnpackedFloat

/-! ## Mantissas -/

/-- Twice the mantissa, with the bit behind it. -/
def halves (extended : ExtendedMantissa) : Nat :=
  2 * extended.mantissa + extended.roundBit.toNat

theorem halves_shiftRightOne (extended : ExtendedMantissa) :
    halves extended.shiftRightOne = halves extended / 2 := by
  obtain ⟨mantissa, roundBit, stickyBit⟩ := extended
  simp only [halves, ExtendedMantissa.shiftRightOne]
  have parity := Nat.mod_two_eq_zero_or_one mantissa
  rcases parity with even | odd
  · cases roundBit <;> simp [even] <;> omega
  · cases roundBit <;> simp [odd] <;> omega

theorem halves_shiftRight (extended : ExtendedMantissa) (count : Nat) :
    halves (extended >>> count) = halves extended / 2 ^ count := by
  change halves (count.repeat ExtendedMantissa.shiftRightOne extended) = _
  induction count with
  | zero => simp [Nat.repeat]
  | succ count inductionHypothesis =>
      rw [Nat.repeat, halves_shiftRightOne, inductionHypothesis, Nat.div_div_eq_div_mul,
        Nat.pow_succ]

theorem mantissa_eq (extended : ExtendedMantissa) :
    extended.mantissa = halves extended / 2 := by
  unfold halves
  have bit := Bool.toNat_le extended.roundBit
  omega

theorem mantissa_le_roundedMantissa (extended : ExtendedMantissa) :
    extended.mantissa ≤ extended.roundedMantissa := by
  obtain ⟨mantissa, roundBit, stickyBit⟩ := extended
  cases roundBit <;> cases stickyBit <;>
    simp [ExtendedMantissa.roundedMantissa, ExtendedMantissa.accuracy,
      Accuracy.roundToNearestEven]

theorem roundedMantissa_le (extended : ExtendedMantissa) :
    extended.roundedMantissa ≤ extended.mantissa + 1 := by
  obtain ⟨mantissa, roundBit, stickyBit⟩ := extended
  cases roundBit <;> cases stickyBit <;>
    simp [ExtendedMantissa.roundedMantissa, ExtendedMantissa.accuracy,
      Accuracy.roundToNearestEven]
  omega

/-- A mantissa is rounded up to a power of two exactly if all of its bits and the bit behind it
are set. What lies further behind does not matter, since such a mantissa is odd and a tie goes
up. -/
theorem roundedMantissa_eq_iff
    {extended : ExtendedMantissa}
    (small : extended.mantissa < 2 ^ 53) :
    extended.roundedMantissa = 2 ^ 53 ↔ halves extended = 2 ^ 54 - 1 := by
  obtain ⟨mantissa, roundBit, stickyBit⟩ := extended
  unfold halves
  cases roundBit <;> cases stickyBit <;>
    simp [ExtendedMantissa.roundedMantissa, ExtendedMantissa.accuracy,
      Accuracy.roundToNearestEven] at small ⊢ <;> omega

/-! ## Exponents -/

/-- The exponent that a mantissa at an exponent is rounded to. -/
def target (mantissa : Nat) (exponent : Int) : Int :=
  Format.binary64.targetExponent (totalExponent mantissa exponent)

theorem targetExponent_eq (total : Int) :
    Format.binary64.targetExponent total = max (total - 53) (-1074) := rfl

theorem target_eq (mantissa : Nat) (exponent : Int) :
    target mantissa exponent = max (mantissa.log2 + exponent - 52) (-1074) := by
  rw [target, targetExponent_eq, totalExponent]
  omega

@[simp] theorem mantissa_ofMantissaAndAccuracy (mantissa : Nat) (accuracy : Accuracy) :
    (ExtendedMantissa.ofMantissaAndAccuracy mantissa accuracy).mantissa = mantissa := by
  unfold ExtendedMantissa.ofMantissaAndAccuracy
  split <;> rfl

/-- The mantissa, shifted down to the exponent that it is rounded to. -/
def shifted (mantissa : Nat) (exponent : Int) (accuracy : Accuracy) : ExtendedMantissa :=
  ExtendedMantissa.ofMantissaAndAccuracy mantissa accuracy >>>
    (target mantissa exponent - exponent).toNat

theorem shiftToTargetExponent_eq
    (mantissa : Nat)
    (exponent : Int)
    (accuracy : Accuracy) :
    shiftToTargetExponent Format.binary64 mantissa exponent accuracy =
      (shifted mantissa exponent accuracy,
        exponent + (target mantissa exponent - exponent).toNat) := rfl

theorem halves_shifted (mantissa : Nat) (exponent : Int) (accuracy : Accuracy) :
    halves (shifted mantissa exponent accuracy) =
      halves (.ofMantissaAndAccuracy mantissa accuracy) /
        2 ^ (target mantissa exponent - exponent).toNat :=
  halves_shiftRight _ _

theorem mantissa_shifted (mantissa : Nat) (exponent : Int) (accuracy : Accuracy) :
    (shifted mantissa exponent accuracy).mantissa =
      mantissa / 2 ^ (target mantissa exponent - exponent).toNat := by
  rw [mantissa_eq, halves_shifted, Nat.div_div_eq_div_mul, Nat.mul_comm,
    ← Nat.div_div_eq_div_mul, ← mantissa_eq, mantissa_ofMantissaAndAccuracy]

theorem mantissa_shifted_lt (mantissa : Nat) (exponent : Int) (accuracy : Accuracy) :
    (shifted mantissa exponent accuracy).mantissa < 2 ^ 53 := by
  rw [mantissa_shifted]
  refine Nat.div_lt_of_lt_mul ?_
  rw [← Nat.pow_add]
  refine Nat.lt_of_lt_of_le Nat.lt_log2_self (Nat.pow_le_pow_right (by decide) ?_)
  rw [target_eq]
  omega

/-- A mantissa that has been rounded keeps its exponent unless it is full. -/
theorem shiftToTargetExponent_exact
    {mantissa : Nat}
    {exponent : Int}
    (small : mantissa ≤ 2 ^ 53)
    (above : -1074 ≤ exponent) :
    shiftToTargetExponent Format.binary64 mantissa exponent .exact =
      if mantissa = 2 ^ 53 then (⟨2 ^ 52, false, false⟩, exponent + 1)
      else (⟨mantissa, false, false⟩, exponent) := by
  rw [shiftToTargetExponent_eq, shifted]
  split
  next full =>
    subst full
    have isTarget : target (2 ^ 53) exponent = exponent + 1 := by
      rw [target_eq, Nat.log2_two_pow]
      omega
    rw [isTarget, add_sub_cancel_left]
    rfl
  next notFull =>
    have isLog : mantissa.log2 ≤ 52 := by
      rcases Nat.eq_zero_or_pos mantissa with rfl | positive
      · decide
      · exact Nat.le_of_lt_succ ((Nat.log2_lt positive.ne').mpr (by omega))
    have isTarget : target mantissa exponent ≤ exponent := by
      rw [target_eq]
      omega
    rw [Int.toNat_of_nonpos (by omega)]
    exact Prod.ext rfl (Int.add_zero exponent)

/-! ## Rounding -/

/-- A number that can be packed without becoming infinite. -/
def Fits : UnpackedFloat → Prop
  | .zero _ => True
  | .finite _ _ exponent _ => exponent ≤ 971
  | .infinity _ => False
  | .notANumber => False

/-- The number that a mantissa at an exponent makes. -/
def ofMantissa (sign : Sign) (mantissa : Nat) (exponent : Int) : UnpackedFloat :=
  if zero : mantissa = 0 then .zero sign
  else .finite sign mantissa exponent (Nat.pos_of_ne_zero zero)

theorem fits_ofMantissa_iff (sign : Sign) (mantissa : Nat) (exponent : Int) :
    Fits (ofMantissa sign mantissa exponent) ↔ mantissa = 0 ∨ exponent ≤ 971 := by
  unfold ofMantissa
  by_cases zero : mantissa = 0
  · rw [dif_pos zero]
    exact iff_of_true trivial (.inl zero)
  · rw [dif_neg zero]
    exact (or_iff_right zero).symm

theorem ofMantissa_ne_notANumber (sign : Sign) (mantissa : Nat) (exponent : Int) :
    ofMantissa sign mantissa exponent ≠ .notANumber := by
  unfold ofMantissa
  by_cases zero : mantissa = 0
  · rw [dif_pos zero]
    exact nofun
  · rw [dif_neg zero]
    exact nofun

/-- What is rounded is shifted once more, since rounding may have filled the mantissa. -/
theorem roundWithAccuracy_eq
    (sign : Sign)
    (mantissa : Nat)
    (exponent : Int)
    (accuracy : Accuracy) :
    let first := shiftToTargetExponent Format.binary64 mantissa exponent accuracy
    let second := shiftToTargetExponent Format.binary64 first.1.roundedMantissa first.2 .exact
    roundWithAccuracy Format.binary64 sign mantissa exponent accuracy =
      ofMantissa sign second.1.mantissa second.2 := rfl

/-- The number that a rounded mantissa at an exponent makes: a full one is shifted by a bit. -/
def carried (sign : Sign) (mantissa : Nat) (exponent : Int) : UnpackedFloat :=
  if mantissa = 2 ^ 53 then ofMantissa sign (2 ^ 52) (exponent + 1)
  else ofMantissa sign mantissa exponent

/-- What is made of a rounded mantissa at an exponent. -/
inductive Carries (sign : Sign) (mantissa : Nat) (exponent : Int) : UnpackedFloat → Prop
  | empty
      (isZero : mantissa = 0) :
      Carries sign mantissa exponent (.zero sign)
  | kept
      (positive : 0 < mantissa)
      (notFull : mantissa ≠ 2 ^ 53) :
      Carries sign mantissa exponent (.finite sign mantissa exponent positive)
  | full
      (isFull : mantissa = 2 ^ 53)
      (positive : 0 < 2 ^ 52) :
      Carries sign mantissa exponent (.finite sign (2 ^ 52) (exponent + 1) positive)

theorem carries_carried (sign : Sign) (mantissa : Nat) (exponent : Int) :
    Carries sign mantissa exponent (carried sign mantissa exponent) := by
  unfold carried ofMantissa
  by_cases isFull : mantissa = 2 ^ 53
  · rw [if_pos isFull, dif_neg (by decide)]
    exact .full isFull (by decide)
  · rw [if_neg isFull]
    by_cases isZero : mantissa = 0
    · rw [dif_pos isZero]
      exact .empty isZero
    · rw [dif_neg isZero]
      exact .kept (Nat.pos_of_ne_zero isZero) isFull

theorem fits_carried_iff (sign : Sign) (mantissa : Nat) (exponent : Int) :
    Fits (carried sign mantissa exponent) ↔
      mantissa = 0 ∨ exponent ≤ 970 ∨ exponent = 971 ∧ mantissa ≠ 2 ^ 53 := by
  unfold carried
  split
  · rw [fits_ofMantissa_iff]
    omega
  · rw [fits_ofMantissa_iff]
    omega

/-- A number that is not too short is rounded to its shifted and rounded mantissa. -/
theorem roundWithAccuracy_eq_carried
    (sign : Sign)
    {mantissa : Nat}
    {exponent : Int}
    (accuracy : Accuracy)
    (below : exponent ≤ target mantissa exponent) :
    roundWithAccuracy Format.binary64 sign mantissa exponent accuracy =
      carried sign (shifted mantissa exponent accuracy).roundedMantissa
        (target mantissa exponent) := by
  have above : -1074 ≤ target mantissa exponent := by
    rw [target_eq]
    exact le_max_right _ _
  have small : (shifted mantissa exponent accuracy).roundedMantissa ≤ 2 ^ 53 :=
    Nat.le_trans (roundedMantissa_le _) (mantissa_shifted_lt ..)
  have reached : exponent + ((target mantissa exponent - exponent).toNat : Int) =
      target mantissa exponent := by
    omega
  have shiftedTwice := roundWithAccuracy_eq sign mantissa exponent accuracy
  rw [shiftToTargetExponent_eq mantissa exponent] at shiftedTwice
  dsimp only at shiftedTwice
  rw [shiftedTwice, reached, shiftToTargetExponent_exact small above, carried]
  split
  · rfl
  · rfl

theorem fits_roundWithAccuracy_iff_rounded
    (sign : Sign)
    {mantissa : Nat}
    {exponent : Int}
    (accuracy : Accuracy)
    (below : exponent ≤ target mantissa exponent) :
    Fits (roundWithAccuracy Format.binary64 sign mantissa exponent accuracy) ↔
      (shifted mantissa exponent accuracy).roundedMantissa = 0 ∨
        target mantissa exponent ≤ 970 ∨
        target mantissa exponent = 971 ∧
          (shifted mantissa exponent accuracy).roundedMantissa ≠ 2 ^ 53 := by
  rw [roundWithAccuracy_eq_carried sign accuracy below, fits_carried_iff]

/-! ## The limit -/

/-- A number of 54 bits, all of which are set, times a power of two. -/
@[irreducible]
def limitAt (power : Nat) : Nat := (2 ^ 54 - 1) * 2 ^ power

theorem limitAt_pos (power : Nat) : 0 < limitAt power := by
  unfold limitAt
  positivity

theorem mul_lt_limitAt
    {number power other : Nat}
    (small : number < 2 ^ 53)
    (above : power ≤ other + 1) :
    number * 2 ^ power < limitAt other :=
  calc number * 2 ^ power
      ≤ number * 2 ^ (other + 1) :=
        Nat.mul_le_mul_left _ (Nat.pow_le_pow_right (by decide) above)
    _ = 2 * number * 2 ^ other := by
        rw [pow_succ]
        ring
    _ < limitAt other := by
        unfold limitAt
        exact Nat.mul_lt_mul_of_pos_right (by omega) (Nat.two_pow_pos _)

/-- A number with more bits than a limit times another number is not below it. -/
theorem limitAt_mul_le
    {left right power first other : Nat}
    (positive : 0 < left)
    (longer : 54 + power + (right.log2 + 1 + other) ≤ left.log2 + first) :
    limitAt power * (right * 2 ^ other) ≤ left * 2 ^ first :=
  calc limitAt power * (right * 2 ^ other)
      ≤ 2 ^ 54 * 2 ^ power * (2 ^ (right.log2 + 1) * 2 ^ other) := by
        unfold limitAt
        exact Nat.mul_le_mul (Nat.mul_le_mul_right _ (Nat.sub_le _ _))
          (Nat.mul_le_mul_right _ Nat.lt_log2_self.le)
    _ = 2 ^ (54 + power + (right.log2 + 1 + other)) := by
        rw [pow_add 2 (54 + power), pow_add 2 54 power, pow_add 2 (right.log2 + 1) other]
    _ ≤ 2 ^ (left.log2 + first) := Nat.pow_le_pow_right (by decide) longer
    _ = 2 ^ left.log2 * 2 ^ first := pow_add ..
    _ ≤ left * 2 ^ first := Nat.mul_le_mul_right _ (Nat.log2_self_le positive.ne')

/-- Powers of two may be moved from one side of a comparison to the other. -/
theorem mul_lt_limitAt_mul_iff
    {left right power other first second third : Nat}
    (balanced : power + (second + third) = first + other) :
    left * 2 ^ power < limitAt other * right ↔
      left * 2 ^ first < limitAt second * (right * 2 ^ third) := by
  have leftSide : left * 2 ^ power * 2 ^ (second + third) = left * 2 ^ first * 2 ^ other := by
    rw [mul_assoc, mul_assoc, ← pow_add, ← pow_add, balanced]
  have rightSide : limitAt other * right * 2 ^ (second + third) =
      limitAt second * (right * 2 ^ third) * 2 ^ other := by
    unfold limitAt
    ring
  rw [← Nat.mul_lt_mul_right (Nat.two_pow_pos (second + third)), leftSide, rightSide,
    Nat.mul_lt_mul_right (Nat.two_pow_pos other)]

theorem halves_ofMantissaAndAccuracy_le (mantissa : Nat) (accuracy : Accuracy) :
    2 * mantissa ≤ halves (.ofMantissaAndAccuracy mantissa accuracy) ∧
      halves (.ofMantissaAndAccuracy mantissa accuracy) ≤ 2 * mantissa + 1 := by
  unfold halves
  rw [mantissa_ofMantissaAndAccuracy]
  exact ⟨Nat.le_add_right _ _, Nat.add_le_add_left (Bool.toNat_le _) _⟩

/-- Rounding up to an exponent of 972 or more leaves nothing that can be packed. -/
theorem not_fits_roundWithAccuracy
    (sign : Sign)
    {mantissa : Nat}
    {exponent : Int}
    (accuracy : Accuracy)
    (below : exponent ≤ target mantissa exponent)
    (high : 972 ≤ target mantissa exponent) :
    ¬Fits (roundWithAccuracy Format.binary64 sign mantissa exponent accuracy) := by
  rw [fits_roundWithAccuracy_iff_rounded sign accuracy below]
  have positive : 0 < (shifted mantissa exponent accuracy).roundedMantissa := by
    refine Nat.lt_of_lt_of_le ?_ (mantissa_le_roundedMantissa _)
    rw [mantissa_shifted]
    refine Nat.div_pos (Nat.le_trans (Nat.pow_le_pow_right (by decide) ?_)
      (Nat.log2_self_le ?_)) (Nat.two_pow_pos _)
    · rw [target_eq] at high ⊢
      omega
    · rintro rfl
      rw [target_eq, Nat.log2_zero] at high below
      omega
  omega

/-- A number at an exponent up to 971 can be packed after rounding if it is less than the
number half way between the greatest double and the next power of two. -/
theorem fits_roundWithAccuracy_iff
    (sign : Sign)
    {mantissa : Nat}
    {exponent : Int}
    (accuracy : Accuracy)
    (below : exponent ≤ target mantissa exponent)
    (low : exponent ≤ 971) :
    Fits (roundWithAccuracy Format.binary64 sign mantissa exponent accuracy) ↔
      halves (.ofMantissaAndAccuracy mantissa accuracy) < limitAt (971 - exponent).toNat := by
  obtain ⟨lower, upper⟩ := halves_ofMantissaAndAccuracy_le mantissa accuracy
  have isTarget := target_eq mantissa exponent
  unfold limitAt
  set scale := 2 ^ (971 - exponent).toNat with isScale
  -- only at an exponent of 971 does it depend on how the mantissa is rounded
  rcases Int.lt_trichotomy (target mantissa exponent) 971 with less | equal | greater
  · refine iff_of_true ((fits_roundWithAccuracy_iff_rounded sign accuracy below).mpr
      (.inr (.inl (by omega)))) ?_
    have bound : mantissa < 2 ^ 52 * scale := by
      rw [isScale, ← Nat.pow_add]
      exact Nat.lt_of_lt_of_le Nat.lt_log2_self (Nat.pow_le_pow_right (by decide) (by omega))
    omega
  · have reached : halves (shifted mantissa exponent accuracy) =
        halves (.ofMantissaAndAccuracy mantissa accuracy) / scale := by
      rw [halves_shifted, equal]
    have full := mantissa_shifted_lt mantissa exponent accuracy
    rw [fits_roundWithAccuracy_iff_rounded sign accuracy below, ne_eq,
      roundedMantissa_eq_iff full, ← Nat.div_lt_iff_lt_mul (Nat.two_pow_pos _), ← reached]
    have rounded := mantissa_le_roundedMantissa (shifted mantissa exponent accuracy)
    rw [mantissa_eq] at full rounded
    omega
  · refine iff_of_false (not_fits_roundWithAccuracy sign accuracy below (by omega)) ?_
    have bound : 2 ^ 53 * scale ≤ mantissa := by
      rw [isScale, ← Nat.pow_add]
      refine Nat.le_trans (Nat.pow_le_pow_right (by decide) (by omega)) (Nat.log2_self_le ?_)
      rintro rfl
      rw [Nat.log2_zero] at isTarget
      omega
    omega

/-! ## Sums and quotients -/

theorem log2_shiftLeft {number : Nat} (positive : 0 < number) (count : Nat) :
    (number <<< count).log2 = number.log2 + count := by
  induction count with
  | zero => rfl
  | succ count inductionHypothesis =>
      have shiftedPositive : number <<< count ≠ 0 := by
        rw [Nat.shiftLeft_eq]
        exact (Nat.mul_pos positive (Nat.two_pow_pos _)).ne'
      rw [Nat.shiftLeft_succ, Nat.log2_two_mul shiftedPositive, inductionHypothesis]
      rfl

/-- A mantissa that is lengthened is rounded at the same exponent. -/
theorem target_shiftLeft {mantissa : Nat} (positive : 0 < mantissa) (exponent : Int) (count : Nat) :
    target (mantissa <<< count) (exponent - count) = target mantissa exponent := by
  rw [target_eq, target_eq, log2_shiftLeft positive]
  omega

/-- The least size, in units of the least positive double, of what is rounded to infinity: it
lies half way between the greatest double and the next power of two. -/
def limit : Nat := limitAt 2044

theorem limit_pos : 0 < limit := limitAt_pos 2044

/-- A multiple of a power of two is packed as a finite number if its size is below the
limit. -/
theorem fits_round_iff
    (sign : Sign)
    {mantissa : Nat}
    {exponent : Int}
    (low : -1074 ≤ exponent)
    (high : exponent ≤ 971)
    (positive : 0 < mantissa) :
    Fits (UnpackedFloat.round Format.binary64 sign mantissa exponent) ↔
      mantissa * 2 ^ (exponent + 1074).toNat < limit := by
  set count := (exponent - target mantissa exponent).toNat with isCount
  have isTarget := target_eq mantissa exponent
  have sameTarget := target_shiftLeft positive exponent count
  change Fits (roundWithAccuracy Format.binary64 sign (mantissa <<< count) (exponent - count)
    .exact) ↔ _
  rw [fits_roundWithAccuracy_iff sign .exact (by omega) (by omega)]
  have doubled : halves (.ofMantissaAndAccuracy (mantissa <<< count) .exact) =
      mantissa * 2 ^ (count + 1) := by
    rw [Nat.pow_succ, ← Nat.mul_assoc, Nat.mul_comm, ← Nat.shiftLeft_eq]
    rfl
  have moved := @mul_lt_limitAt_mul_iff mantissa 1 (count + 1) (971 - (exponent - count)).toNat
    (exponent + 1074).toNat 2044 0 (by omega)
  rw [doubled]
  rwa [pow_zero, Nat.mul_one, Nat.mul_one, Nat.mul_one] at moved

theorem fits_normalize_iff
    (mantissa : Int)
    {exponent : Int}
    (low : -1074 ≤ exponent)
    (high : exponent ≤ 971)
    (zeroSign : Sign) :
    Fits (UnpackedFloat.normalize Format.binary64 mantissa exponent zeroSign) ↔
      mantissa.natAbs * 2 ^ (exponent + 1074).toNat < limit := by
  unfold UnpackedFloat.normalize
  rcases Int.lt_trichotomy mantissa 0 with negative | rfl | positive
  · rw [Int.compare_eq_lt.mpr negative]
    have same : (-mantissa).toNat = mantissa.natAbs := by omega
    dsimp only
    rw [fits_round_iff .negative low high (by omega), same]
  · rw [Int.natAbs_zero, Nat.zero_mul]
    exact iff_of_true trivial limit_pos
  · rw [Int.compare_eq_gt.mpr positive]
    have same : mantissa.toNat = mantissa.natAbs := by omega
    dsimp only
    rw [fits_round_iff .positive low high (by omega), same]

/-- The bit behind a quotient says whether the remainder is at least half of the divisor. -/
theorem halves_quotient (dividend : Nat) {divisor : Nat} (positive : 0 < divisor) :
    halves (.ofMantissaAndAccuracy (dividend / divisor)
      (accuracyOfFraction (dividend % divisor) divisor)) = 2 * dividend / divisor := by
  have small := Nat.mod_lt dividend positive
  have quotient : 2 * dividend / divisor =
      2 * (dividend / divisor) + 2 * (dividend % divisor) / divisor := by
    rw [← Nat.mul_add_div positive, Nat.mul_left_comm, ← Nat.mul_add, Nat.div_add_mod]
  rw [quotient, halves, mantissa_ofMantissaAndAccuracy, Nat.add_left_cancel_iff]
  unfold accuracyOfFraction ExtendedMantissa.ofMantissaAndAccuracy
  by_cases whole : dividend % divisor = 0
  · simp [whole]
  · rw [if_neg whole]
    rcases Nat.lt_trichotomy (2 * (dividend % divisor)) divisor with less | equal | greater
    · rw [Nat.compare_eq_lt.mpr less, Nat.div_eq_of_lt less]
      rfl
    · rw [Nat.compare_eq_eq.mpr equal, equal, Nat.div_self positive]
      rfl
    · have once : 2 * (dividend % divisor) / divisor = 1 :=
        Nat.div_eq_of_lt_le (by omega) (by omega)
      rw [Nat.compare_eq_gt.mpr greater, once]
      rfl

section

variable {dividend divisor : Nat}

/-- The exponent at which two mantissas are divided. -/
def quotientExponent (dividend : Nat) (up : Int) (divisor : Nat) (down : Int) : Int :=
  min (up - down) (max (dividend.log2 + up - (divisor.log2 + down) - 53) (-1074))

theorem divCore_eq (dividend : Nat) (up : Int) (divisor : Nat) (down : Int) :
    let exponent := quotientExponent dividend up divisor down
    let scaled := dividend <<< (up - down - exponent).toNat
    divCore Format.binary64 dividend up divisor down =
      (scaled / divisor, exponent, accuracyOfFraction (scaled % divisor) divisor) := by
  have same : min (up - down)
      (Format.binary64.targetExponent (totalExponent dividend up - totalExponent divisor down)) =
        quotientExponent dividend up divisor down := by
    rw [quotientExponent, targetExponent_eq, totalExponent, totalExponent]
    omega
  intro exponent scaled
  simp only [divCore, same]
  rfl

/-- A quotient is not so short that it would have to be lengthened. -/
theorem quotientExponent_le_target
    (up down : Int)
    (dividendPositive : 0 < dividend)
    (divisorPositive : 0 < divisor) :
    let exponent := quotientExponent dividend up divisor down
    exponent ≤ target (dividend <<< (up - down - exponent).toNat / divisor) exponent := by
  intro exponent
  have isExponent : exponent = min (up - down)
    (max (dividend.log2 + up - (divisor.log2 + down) - 53) (-1074)) := rfl
  rw [target_eq]
  by_cases normal : -1074 < exponent
  · have count : 53 + divisor.log2 ≤ dividend.log2 + (up - down - exponent).toNat := by omega
    have long : 2 ^ 52 ≤ dividend <<< (up - down - exponent).toNat / divisor := by
      rw [Nat.le_div_iff_mul_le divisorPositive, Nat.shiftLeft_eq]
      calc 2 ^ 52 * divisor
          ≤ 2 ^ 52 * 2 ^ (divisor.log2 + 1) :=
            Nat.mul_le_mul_left _ Nat.lt_log2_self.le
        _ ≤ 2 ^ dividend.log2 * 2 ^ (up - down - exponent).toNat := by
            rw [← Nat.pow_add, ← Nat.pow_add]
            exact Nat.pow_le_pow_right (by decide) (by omega)
        _ ≤ dividend * 2 ^ (up - down - exponent).toNat :=
            Nat.mul_le_mul_right _ (Nat.log2_self_le dividendPositive.ne')
    have log := (Nat.le_log2 (by omega)).mpr long
    omega
  · omega

/-- A quotient of doubles is packed as a finite number if it is below the limit. -/
theorem fits_div_iff
    (first second : Sign)
    {up down : Int}
    (dividendPositive : 0 < dividend)
    (divisorPositive : 0 < divisor)
    (upLow : -1074 ≤ up)
    (downLow : -1074 ≤ down) :
    Fits (UnpackedFloat.div Format.binary64 (.finite first dividend up dividendPositive)
        (.finite second divisor down divisorPositive)) ↔
      dividend * 2 ^ (up + 1074).toNat * 2 ^ 1074 <
        limit * (divisor * 2 ^ (down + 1074).toNat) := by
  have core := divCore_eq dividend up divisor down
  have below := quotientExponent_le_target up down dividendPositive divisorPositive
  have isExponent : quotientExponent dividend up divisor down = min (up - down)
    (max (dividend.log2 + up - (divisor.log2 + down) - 53) (-1074)) := rfl
  generalize quotientExponent dividend up divisor down = exponent at core below isExponent
  unfold UnpackedFloat.div
  simp only at core below
  simp only [core]
  set count := (up - down - exponent).toNat with isCount
  by_cases low : exponent ≤ 971
  · have leftSide : 2 * (dividend * 2 ^ count) = dividend * 2 ^ (count + 1) := by ring
    rw [fits_roundWithAccuracy_iff _ _ below low, halves_quotient _ divisorPositive,
      Nat.div_lt_iff_lt_mul divisorPositive, Nat.shiftLeft_eq, leftSide, mul_assoc, ← pow_add]
    exact mul_lt_limitAt_mul_iff (by omega)
  · refine iff_of_false (not_fits_roundWithAccuracy _ _ below (by omega)) (Nat.not_lt.mpr ?_)
    rw [mul_assoc, ← pow_add]
    exact limitAt_mul_le dividendPositive (by omega)

end

end Double
end CompositeIndex
