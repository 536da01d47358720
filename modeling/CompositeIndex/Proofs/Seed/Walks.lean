import Mathlib.Data.List.Chain
import CompositeIndex.Proofs.Decimal.Arithmetic
import CompositeIndex.Proofs.Decimal.Reading
import CompositeIndex.Proofs.Seed.Effect

/-!
# What a walk is

A walk sets out from the initial price of its instrument. Each of its prices is the one before it,
moved by at most half of the amplitude and rounded, or the lowest price allowed if this is more. A
walk is never so long that a price could be infinite, so it consists of positive prices.
-/

namespace CompositeIndex

open Double (toRat units IsNearest toRat_zero toRat_one)

/-! ## Fractions -/

namespace Generator

/-- A double from zero up to one, one excluded. -/
structure IsFraction (value : Float) : Prop where
  isFinite : value.isFinite = true
  nonneg : 0 ≤ toRat value
  below : toRat value < 1

/-- The number of words that a fraction is made of. -/
theorem toRat_scale : toRat 9223372036854775808 = 2 ^ 63 := by
  have isScale := Double.toRat_mul_eq
    (by decide +kernel : units 1 * 2 ^ 63 = units 9223372036854775808)
  rw [toRat_one, one_mul, Int.cast_pow, Int.cast_ofNat] at isScale
  exact isScale.symm

theorem isFraction_zero : IsFraction 0 :=
  ⟨by decide +kernel, toRat_zero.ge, toRat_zero.trans_lt one_pos⟩

/-- A word is rounded once when it becomes a double. -/
theorem isNearest_toFloat (word : UInt64) : IsNearest word.toNat word.toFloat := by
  have nearest := Double.isNearest_normalize word.toNat 0 .positive
  rwa [zpow_zero, mul_one] at nearest

/-- A word of 63 bits, divided by their number, lies between zero and one. -/
theorem isNearest_fraction {kept : UInt64} (some : kept ≠ 0) (small : kept.toNat < 2 ^ 63) :
    (kept.toFloat / 9223372036854775808).isFinite = true ∧
      0 ≤ toRat (kept.toFloat / 9223372036854775808) ∧
      toRat (kept.toFloat / 9223372036854775808) ≤ 1 ∧
      Decimal.isNegative (kept.toFloat / 9223372036854775808) = false := by
  have atLeast : (1 : ℚ) ≤ kept.toNat := by
    have notZero : kept.toNat ≠ 0 := fun zero => some (UInt64.toNat_inj.mp zero)
    exact_mod_cast Nat.one_le_iff_ne_zero.mpr notZero
  have atMost : (kept.toNat : ℚ) ≤ 2 ^ 63 := by exact_mod_cast small.le
  have scaleFinite : (9223372036854775808 : Float).isFinite = true := by decide +kernel
  have whole := (isNearest_toFloat kept).isClosest scaleFinite
    (by rwa [toRat_scale, abs_of_nonneg (by positivity)])
  have above := whole.le_toRat (by decide +kernel : (1 : Float).isFinite = true)
    (by rwa [toRat_one])
  have below := whole.toRat_le scaleFinite (by rwa [toRat_scale])
  rw [toRat_one] at above
  rw [toRat_scale] at below
  have wholePositive : 0 < toRat kept.toFloat := by linarith
  have scalePositive : 0 < toRat 9223372036854775808 := by
    rw [toRat_scale]
    positivity
  obtain ⟨nearest, isPositive⟩ := Double.isNearest_div wholePositive scalePositive
  rw [toRat_scale] at nearest
  have nonneg : 0 ≤ toRat kept.toFloat / 2 ^ 63 := by positivity
  have ratio : toRat kept.toFloat / 2 ^ 63 ≤ 1 := (div_le_one (by positivity)).mpr below
  have oneFinite : (1 : Float).isFinite = true := by decide +kernel
  have closest := nearest.isClosest oneFinite (by rwa [toRat_one, abs_of_nonneg nonneg])
  have upper := closest.toRat_le oneFinite (by rwa [toRat_one])
  have lower := closest.le_toRat (by decide +kernel : (0 : Float).isFinite = true)
    (by rwa [toRat_zero])
  rw [toRat_one] at upper
  rw [toRat_zero] at lower
  exact ⟨closest.isFinite, lower, upper, isPositive⟩

/-- A word that would be rounded up to one is told by comparing it with one. -/
theorem isFraction_fraction {word : UInt64} (below : fraction word < 1) :
    IsFraction (fraction word) := by
  have small : (word >>> 1).toNat < 2 ^ 63 := by
    have bound := word.toNat_lt
    rw [UInt64.toNat_shiftRight]
    change word.toNat >>> 1 < 2 ^ 63
    omega
  unfold fraction at below ⊢
  generalize word >>> 1 = kept at small below
  by_cases isZero : kept = 0
  · have same : kept.toFloat / 9223372036854775808 = 0 := by
      rw [isZero]
      decide +kernel
    rw [same]
    exact isFraction_zero
  · obtain ⟨finite, nonneg, atMost, isPositive⟩ := isNearest_fraction isZero small
    refine ⟨finite, nonneg, lt_of_le_of_ne atMost fun isOne => ?_⟩
    have same := Double.eq_of_toRat_eq finite (by decide +kernel : (1 : Float).isFinite = true)
      (isOne.trans toRat_one.symm) (isPositive.trans (by decide +kernel))
    rw [same] at below
    exact absurd below (by decide +kernel)

theorem isFraction_unitUpTo (draws : Nat) (generator : Generator) :
    IsFraction (generator.unitUpTo draws).1 := by
  induction draws generalizing generator with
  | zero => exact isFraction_zero
  | succ draws inductionHypothesis =>
      rw [unitUpTo]
      obtain ⟨word, later⟩ := generator.next
      by_cases below : fraction word < 1
      · simp only [if_pos below]
        exact isFraction_fraction below
      · simp only [if_neg below]
        exact inductionHypothesis later

end Generator

namespace Seed

open Generator (IsFraction)

/-! ## Steps -/

/-- An amplitude that no step is rounded beyond. -/
structure IsAmplitude (amplitude : Float) : Prop where
  isFinite : amplitude.isFinite = true
  nonneg : 0 ≤ toRat amplitude
  atMost : toRat amplitude ≤ 2
  /-- Half of the amplitude is a double. -/
  half : ∃ half : Float, half.isFinite = true ∧ toRat half * 2 = toRat amplitude

/-- The price moves by at most half of the amplitude and is rounded. If this leads below the lowest
price allowed, that is the next one. -/
def Moves (amplitude price next : Float) : Prop :=
  ∃ (shift : ℚ) (moved : Float),
    |shift| ≤ toRat amplitude / 2 ∧ IsNearest (toRat price + shift) moved ∧ next = clamp moved

theorem toRat_half : toRat 0.5 * 2 = 1 := by
  rw [← toRat_one]
  exact Double.toRat_mul_eq (by decide +kernel : units 0.5 * 2 = units 1)

/-- A fraction less a half, times the amplitude, is at most half of the amplitude. -/
theorem abs_shift_le
    {fraction amplitude : Float}
    (isFraction : IsFraction fraction)
    (isAmplitude : IsAmplitude amplitude) :
    ((fraction - 0.5) * amplitude).isFinite = true ∧
      |toRat ((fraction - 0.5) * amplitude)| ≤ toRat amplitude / 2 := by
  obtain ⟨half, halfFinite, isHalf⟩ := isAmplitude.half
  have halfOfOne := toRat_half
  have centered : |toRat fraction - toRat 0.5| ≤ toRat 0.5 := by
    rw [abs_le]
    constructor <;> linarith [isFraction.nonneg, isFraction.below]
  have pointFiveFinite : (0.5 : Float).isFinite = true := by decide +kernel
  obtain ⟨finite, atMost⟩ :=
    (Double.isNearest_sub isFraction.isFinite pointFiveFinite).abs_toRat_le pointFiveFinite centered
  have product : |toRat (fraction - 0.5) * toRat amplitude| ≤ toRat half := by
    rw [abs_mul, abs_of_nonneg isAmplitude.nonneg]
    nlinarith [isAmplitude.nonneg]
  have shift := (Double.isNearest_mul_of_isFinite finite isAmplitude.isFinite).abs_toRat_le
    halfFinite product
  rwa [(by linarith : toRat half = toRat amplitude / 2)] at shift

theorem priceFloor_le_clamp (price : Float) : priceFloor ≤ clamp price := by
  unfold clamp
  by_cases above : priceFloor ≤ price
  · rwa [if_pos above]
  · rw [if_neg above]
    decide +kernel

/-- The lowest price is positive and at most one. -/
theorem abs_toRat_priceFloor_le : |toRat priceFloor| ≤ 1 := by
  have nonneg := Double.toRat_le_of_units_le (by decide +kernel : units 0 ≤ units priceFloor)
  have atMost := Double.toRat_le_of_units_le (by decide +kernel : units priceFloor ≤ units 1)
  rw [toRat_zero] at nonneg
  rw [toRat_one] at atMost
  rwa [abs_of_nonneg nonneg]

theorem abs_toRat_clamp_le
    {price : Float} {most : ℚ}
    (finite : price.isFinite = true)
    (atMost : |toRat price| ≤ most)
    (some : 1 ≤ most) :
    (clamp price).isFinite = true ∧ |toRat (clamp price)| ≤ most := by
  unfold clamp
  by_cases above : priceFloor ≤ price
  · rw [if_pos above]
    exact ⟨finite, atMost⟩
  · rw [if_neg above]
    exact ⟨by decide +kernel, abs_toRat_priceFloor_le.trans some⟩

/-- A step of a walk leads to a finite price that is larger by at most one. -/
theorem moves_clamp
    {fraction amplitude price : Float} {most : Nat}
    (isFraction : IsFraction fraction)
    (isAmplitude : IsAmplitude amplitude)
    (finite : price.isFinite = true)
    (atMost : |toRat price| ≤ most)
    (few : most + 1 < 2 ^ 53) :
    let next := clamp (price + (fraction - 0.5) * amplitude)
    Moves amplitude price next ∧ next.isFinite = true ∧ |toRat next| ≤ (most + 1 : Nat) := by
  intro next
  obtain ⟨shiftFinite, small⟩ := abs_shift_le isFraction isAmplitude
  have nearest := Double.isNearest_add finite shiftFinite
  have isBound := Decimal.toRat_toFloat (Nat.succ_pos most) few
  have boundFinite := Double.isFinite_of_toRat_pos
    (by rw [isBound]; positivity : 0 < toRat (most + 1).toUInt64.toFloat)
  have sum : |toRat price + toRat ((fraction - 0.5) * amplitude)| ≤ (most + 1 : Nat) := by
    refine (abs_add_le _ _).trans ?_
    push_cast
    linarith [isAmplitude.atMost]
  obtain ⟨movedFinite, movedAtMost⟩ := nearest.abs_toRat_le boundFinite (by rwa [isBound])
  rw [isBound] at movedAtMost
  exact ⟨⟨_, _, small, nearest, rfl⟩,
    abs_toRat_clamp_le movedFinite movedAtMost (by push_cast; linarith [most.cast_nonneg (α := ℚ)])⟩

/-! ## Walks -/

/-- The prices of a walk follow one another by its steps, and they are finite and at least the
lowest price allowed. -/
theorem isChain_walk
    {amplitude : Float}
    (isAmplitude : IsAmplitude amplitude)
    (timestamps : List Timestamp)
    (generator : Generator)
    {price : Float}
    {most : Nat}
    (finite : price.isFinite = true)
    (atMost : |toRat price| ≤ most)
    (few : most + timestamps.length < 2 ^ 53) :
    let prices := (walk amplitude timestamps price generator).1.map Warehouse.Sample.value
    List.IsChain (Moves amplitude) (price :: prices) ∧
      ∀ value ∈ prices, value.isFinite = true ∧ priceFloor ≤ value ∧
        toRat value ≤ (most + timestamps.length : Nat) := by
  induction timestamps generalizing price generator most with
  | nil => exact ⟨List.isChain_singleton price, List.forall_mem_nil _⟩
  | cons timestamp later inductionHypothesis =>
      rw [List.length_cons] at few
      obtain ⟨moves, nextFinite, nextAtMost⟩ := moves_clamp
        (Generator.isFraction_unitUpTo _ generator) isAmplitude finite atMost (by omega)
      obtain ⟨chain, bounded⟩ :=
        inductionHypothesis generator.unit.2 nextFinite nextAtMost (by omega)
      have sameLength : most + 1 + later.length = most + (later.length + 1) := by omega
      rw [sameLength] at bounded
      refine ⟨List.isChain_cons_cons.mpr ⟨moves, chain⟩,
        List.forall_mem_cons.mpr ⟨⟨nextFinite, priceFloor_le_clamp _, ?_⟩, bounded⟩⟩
      refine (le_abs_self _).trans (nextAtMost.trans ?_)
      exact_mod_cast (by omega : most + 1 ≤ most + (later.length + 1))

/-- The amplitudes and the initial prices of the demonstration are small. -/
theorem isAmplitude_of_mem {instrument : Instrument} (member : instrument ∈ Instrument.dowJones) :
    IsAmplitude instrument.amplitude ∧ instrument.initial.isFinite = true ∧
      |toRat instrument.initial| ≤ (251 : Nat) := by
  have checked : ∀ instrument ∈ Instrument.dowJones,
      (instrument.amplitude.isFinite = true ∧ units 0 ≤ units instrument.amplitude ∧
        units instrument.amplitude ≤ units 2) ∧
      ((instrument.amplitude * 0.5).isFinite = true ∧
        units (instrument.amplitude * 0.5) * 2 = units instrument.amplitude) ∧
      instrument.initial.isFinite = true ∧ units 0 ≤ units instrument.initial ∧
        units instrument.initial ≤ units 251 := by
    decide +kernel
  have isTwo := Double.toRat_mul_eq (by decide +kernel : units 1 * 2 = units 2)
  have isMost := Double.toRat_mul_eq (by decide +kernel : units 1 * 251 = units 251)
  rw [toRat_one, one_mul, Int.cast_ofNat] at isTwo isMost
  obtain ⟨⟨finite, nonneg, atMost⟩, ⟨halfFinite, isHalf⟩, initialFinite, initialNonneg,
    initialAtMost⟩ := checked instrument member
  have nonnegRat := Double.toRat_le_of_units_le nonneg
  have atMostRat := Double.toRat_le_of_units_le atMost
  have initialNonnegRat := Double.toRat_le_of_units_le initialNonneg
  have initialAtMostRat := Double.toRat_le_of_units_le initialAtMost
  rw [toRat_zero] at nonnegRat initialNonnegRat
  rw [← isTwo] at atMostRat
  rw [← isMost] at initialAtMostRat
  refine ⟨⟨finite, nonnegRat, atMostRat, _, halfFinite, ?_⟩, initialFinite, ?_⟩
  · exact_mod_cast Double.toRat_mul_eq isHalf
  · rw [abs_of_nonneg initialNonnegRat]
    exact_mod_cast initialAtMostRat

/-- Each walk of the demonstration sets out from the initial price of its instrument, moves by at
most half of the amplitude for each timestamp, and never falls below the lowest price. -/
theorem instrumentWalk_spec
    {instrument : Instrument}
    (member : instrument ∈ Instrument.dowJones)
    (timestamps : List Timestamp)
    (few : timestamps.length ≤ pointLimit)
    (generator : Generator) :
    let samples := (instrumentWalk instrument timestamps generator).1
    samples.map Warehouse.Sample.timestamp = timestamps ∧
      List.IsChain (Moves instrument.amplitude)
        (instrument.initial :: samples.map Warehouse.Sample.value) ∧
      ∀ sample ∈ samples, sample.value.isFinite = true ∧ priceFloor ≤ sample.value ∧
        toRat sample.value ≤ (251 + timestamps.length : Nat) := by
  obtain ⟨isAmplitude, finite, atMost⟩ := isAmplitude_of_mem member
  have short : 251 + timestamps.length < 2 ^ 53 := by
    have limit : pointLimit = 2147483647 := rfl
    omega
  obtain ⟨chain, bounded⟩ := isChain_walk isAmplitude timestamps generator finite atMost short
  exact ⟨map_timestamp_walk _ _ _ _, chain, fun sample listed =>
    bounded sample.value (List.mem_map_of_mem listed)⟩

end Seed
end CompositeIndex
