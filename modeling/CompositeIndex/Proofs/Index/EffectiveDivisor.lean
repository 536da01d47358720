import Mathlib.Data.List.Forall2
import CompositeIndex.Index.Config
import CompositeIndex.Proofs.FirstFault
import CompositeIndex.Proofs.Text.ByteOrder

/-!
# The divisor of an index

A divisor can come from the last override of its index, from the configuration of the index,
from the common divisor, or it is that of the Dow Jones Industrial Average, in this order of
precedence. Overrides are refused at the first one that is malformed. What remains is checked
as a whole, so that every index gets a positive finite divisor or the configuration is refused
for the common divisor or for the first index, in the order of bytes, whose divisor is bad.
-/

namespace CompositeIndex

/-! ## Reading an override -/

namespace DivisorOverride

/-- The text is the name of the override, an equals sign and a literal of its value; blanks
around the name and around the literal do not count. -/
inductive Written (raw : String) : DivisorOverride → Prop
  | intro
      {before behind : List Char} {literal : Decimal.Literal}
      (split : raw.toList = before ++ '=' :: behind)
      (isFirst : '=' ∉ before)
      (named : Text.trimChars before ≠ [])
      (number : Decimal.Literal.ofChars? (Text.trimChars behind) = some literal) :
      Written raw ⟨String.ofList (Text.trimChars before), literal.toFloat⟩

theorem splitAtEquals_eq_some_iff {chars before behind : List Char} :
    splitAtEquals chars = some (before, behind) ↔
      chars = before ++ '=' :: behind ∧ '=' ∉ before := by
  induction chars generalizing before with
  | nil => simp [splitAtEquals]
  | cons char rest inductionHypothesis =>
      unfold splitAtEquals
      by_cases isEquals : char = '='
      · subst isEquals
        cases before with
        | nil => simp
        | cons first before =>
            rw [if_pos rfl]
            refine ⟨nofun, ?_⟩
            rintro ⟨isSplit, absent⟩
            cases isSplit
            exact absurd List.mem_cons_self absent
      · rw [if_neg isEquals]
        cases before with
        | nil => simp [isEquals]
        | cons first before =>
            simp only [Option.map_eq_some_iff, Prod.exists, Prod.mk.injEq, List.cons.injEq]
            constructor
            · rintro ⟨name, value, split, ⟨rfl, rfl⟩, rfl⟩
              obtain ⟨rfl, absent⟩ := inductionHypothesis.mp split
              exact ⟨rfl, by simp [absent, Ne.symm isEquals]⟩
            · rintro ⟨⟨rfl, rfl⟩, absent⟩
              have absentLater := fun member => absent (List.mem_cons_of_mem _ member)
              exact ⟨before, behind, inductionHypothesis.mpr ⟨rfl, absentLater⟩, ⟨rfl, rfl⟩, rfl⟩

/-- A text is read as an override, or it is refused as it stands. -/
theorem parse_cases (raw : String) :
    (∃ override, parse raw = .ok override) ∨ parse raw = .error (.malformedDivisor raw) := by
  cases parsed : parse raw with
  | ok override => exact .inl ⟨override, rfl⟩
  | error invalid =>
      refine .inr ?_
      unfold parse at parsed
      split at parsed
      · rw [← parsed]
      · dsimp only at parsed
        split at parsed
        · rw [← parsed]
        · split at parsed
          · rw [← parsed]
          · cases parsed

theorem parse_eq_ok_iff {raw : String} {override : DivisorOverride} :
    parse raw = .ok override ↔ Written raw override := by
  constructor
  · intro parsed
    unfold parse at parsed
    split at parsed
    · cases parsed
    next before behind isSplit =>
      obtain ⟨split, isFirst⟩ := splitAtEquals_eq_some_iff.mp isSplit
      dsimp only at parsed
      split at parsed
      · cases parsed
      next isNamed =>
        split at parsed
        · cases parsed
        next literal number =>
          cases parsed
          have named : Text.trimChars before ≠ [] :=
            fun unnamed => isNamed (List.isEmpty_iff.mpr unnamed)
          exact .intro split isFirst named number
  · rintro ⟨split, isFirst, named, number⟩
    have isNamed : ¬(Text.trimChars _).isEmpty = true :=
      fun unnamed => named (List.isEmpty_iff.mp unnamed)
    simp only [parse, splitAtEquals_eq_some_iff.mpr ⟨split, isFirst⟩, if_neg isNamed, number]

theorem parse_eq_error
    {raw : String}
    (malformed : ∀ override, ¬Written raw override) :
    parse raw = .error (.malformedDivisor raw) := by
  rcases parse_cases raw with ⟨override, parsed⟩ | refused
  · exact absurd (parse_eq_ok_iff.mp parsed) (malformed override)
  · exact refused

/-- The value that the last override of an index gives it. -/
def lastValue? (overrides : List DivisorOverride) (index : String) : Option Float :=
  (overrides.reverse.find? fun override => override.index = index).map value

theorem lastValue?_cons
    (override : DivisorOverride)
    (overrides : List DivisorOverride)
    (index : String) :
    lastValue? (override :: overrides) index =
      (lastValue? overrides index).or
        (if override.index = index then some override.value else none) := by
  simp only [lastValue?, List.reverse_cons, List.find?_append, List.find?_singleton,
    decide_eq_true_eq, Option.map_or]
  split <;> rfl

theorem exists_forall₂_written
    {raws : List String}
    (wellFormed : ∀ raw ∈ raws, ∃ override, Written raw override) :
    ∃ overrides, List.Forall₂ Written raws overrides := by
  induction raws with
  | nil => exact ⟨[], .nil⟩
  | cons raw raws inductionHypothesis =>
      obtain ⟨⟨override, written⟩, others⟩ := List.forall_mem_cons.mp wellFormed
      obtain ⟨overrides, allWritten⟩ := inductionHypothesis others
      exact ⟨override :: overrides, .cons written allWritten⟩

end DivisorOverride

namespace IndexConfig

open DivisorOverride (Written lastValue?)

/-! ## Applying overrides -/

/-- The configurations differ only in the divisors, and in them as the overrides say. -/
structure Overridden
    (config : IndexConfig)
    (overrides : List DivisorOverride)
    (final : IndexConfig) : Prop where
  defaultDivisor : final.defaultDivisor = config.defaultDivisor
  constituents : final.constituents = config.constituents
  divisors : ∀ index : String,
    final.divisors[index]? = (lastValue? overrides index).or config.divisors[index]?

section

variable {config final : IndexConfig} {raws : List String} {overrides : List DivisorOverride}

theorem Overridden.unique
    {other : IndexConfig}
    (isFirst : config.Overridden overrides final)
    (isSecond : config.Overridden overrides other) :
    final = other := by
  apply IndexConfig.ext
  · exact isFirst.defaultDivisor.trans isSecond.defaultDivisor.symm
  · apply Std.ExtTreeMap.ext_getElem?
    intro index
    exact (isFirst.divisors index).trans (isSecond.divisors index).symm
  · exact isFirst.constituents.trans isSecond.constituents.symm

/-- Overrides are all applied, the first one first. -/
theorem exists_overrideAll
    (written : List.Forall₂ Written raws overrides)
    (config : IndexConfig) :
    ∃ final, config.overrideAll raws = .ok final ∧ config.Overridden overrides final := by
  induction written generalizing config with
  | nil => exact ⟨config, rfl, rfl, rfl, fun index => rfl⟩
  | @cons raw override raws overrides written _ inductionHypothesis =>
      let next : IndexConfig :=
        { config with divisors := config.divisors.insert override.index override.value }
      obtain ⟨final, applied, overridden⟩ := inductionHypothesis next
      refine ⟨final, ?_, overridden.defaultDivisor, overridden.constituents, fun index => ?_⟩
      · rw [overrideAll, List.foldlM_cons, IndexConfig.override,
          DivisorOverride.parse_eq_ok_iff.mpr written]
        exact applied
      · rw [overridden.divisors, DivisorOverride.lastValue?_cons, Option.or_assoc]
        congr 1
        simp only [next, Std.ExtTreeMap.getElem?_insert, Std.compare_eq_iff_eq]
        split <;> rfl

/-- The first malformed override is refused. -/
theorem overrideAll_eq_error
    {before : List String}
    (wellFormed : ∀ earlier ∈ before, ∃ override, Written earlier override)
    {raw : String}
    (malformed : ∀ override, ¬Written raw override)
    (after : List String)
    (config : IndexConfig) :
    config.overrideAll (before ++ raw :: after) = .error (.malformedDivisor raw) := by
  induction before generalizing config with
  | nil =>
      rw [List.nil_append, overrideAll, List.foldlM_cons, IndexConfig.override,
        DivisorOverride.parse_eq_error malformed]
      rfl
  | cons earlier before inductionHypothesis =>
      obtain ⟨⟨override, written⟩, others⟩ := List.forall_mem_cons.mp wellFormed
      rw [List.cons_append, overrideAll, List.foldlM_cons, IndexConfig.override,
        DivisorOverride.parse_eq_ok_iff.mpr written]
      exact inductionHypothesis others _

/-- Either all overrides are applied, or the first malformed one is refused. -/
theorem overrideAll_cases (config : IndexConfig) (raws : List String) :
    (∃ overrides final, List.Forall₂ Written raws overrides ∧
      config.overrideAll raws = .ok final ∧ config.Overridden overrides final) ∨
    ∃ before raw after, raws = before ++ raw :: after ∧
      (∀ earlier ∈ before, ∃ override, Written earlier override) ∧
      (∀ override, ¬Written raw override) ∧
      config.overrideAll raws = .error (.malformedDivisor raw) := by
  rcases forall_or_exists_first (fun raw => ∃ override, Written raw override) raws with
    all | ⟨before, raw, after, rfl, wellFormed, notWritten⟩
  · obtain ⟨overrides, written⟩ := DivisorOverride.exists_forall₂_written all
    obtain ⟨final, applied, overridden⟩ := exists_overrideAll written config
    exact .inl ⟨overrides, final, written, applied, overridden⟩
  · have malformed := not_exists.mp notWritten
    exact .inr ⟨before, raw, after, rfl, wellFormed, malformed,
      overrideAll_eq_error wellFormed malformed after config⟩

end

end IndexConfig

/-! ## Checking divisors -/

/-- A number by which a sum can be divided. -/
def IsPositiveFinite (value : Float) : Prop :=
  value.isFinite = true ∧ 0 < value

theorem isDivisor_iff (value : Float) : isDivisor value = true ↔ IsPositiveFinite value := by
  simp [isDivisor, IsPositiveFinite]

theorem Divisor.isPositiveFinite (divisor : Divisor) : IsPositiveFinite divisor.value :=
  (isDivisor_iff divisor.value).mp divisor.accepted

theorem Divisor.check_of_isPositiveFinite
    (index : String)
    {value : Float}
    (good : IsPositiveFinite value) :
    Divisor.check index value = .ok ⟨value, (isDivisor_iff value).mpr good⟩ :=
  dif_pos ((isDivisor_iff value).mpr good)

theorem Divisor.check_of_not_isPositiveFinite
    (index : String)
    {value : Float}
    (bad : ¬IsPositiveFinite value) :
    Divisor.check index value = .error (.badDivisor index value) :=
  dif_neg fun accepted => bad ((isDivisor_iff value).mp accepted)

namespace Divisors

/-- Divisors that are all good are all taken over. -/
theorem exists_withAll
    {values : List (String × Float)}
    (distinct : values.Pairwise fun first second => first.1 ≠ second.1)
    (good : ∀ entry ∈ values, IsPositiveFinite entry.2)
    (divisors : Divisors) :
    ∃ final, divisors.withAll values = .ok final ∧ final.common = divisors.common ∧
      (∀ entry ∈ values, final.own[entry.1]?.map Divisor.value = some entry.2) ∧
      ∀ index, (∀ entry ∈ values, entry.1 ≠ index) → final.own[index]? = divisors.own[index]? := by
  induction distinct generalizing divisors with
  | nil => exact ⟨divisors, rfl, rfl, nofun, fun _ _ => rfl⟩
  | @cons entry values isOther _ inductionHypothesis =>
      obtain ⟨goodFirst, goodOthers⟩ := List.forall_mem_cons.mp good
      let divisor : Divisor := ⟨entry.2, (isDivisor_iff entry.2).mpr goodFirst⟩
      obtain ⟨final, checked, sameCommon, own, others⟩ := inductionHypothesis goodOthers
        { divisors with own := divisors.own.insert entry.1 divisor }
      refine ⟨final, ?_, sameCommon, List.forall_mem_cons.mpr ⟨?_, own⟩, ?_⟩
      · rw [withAll, List.foldlM_cons, withOwn, Divisor.check_of_isPositiveFinite _ goodFirst]
        exact checked
      · rw [others entry.1 fun other member => (isOther other member).symm,
          Std.ExtTreeMap.getElem?_insert_self]
        rfl
      · intro index absent
        obtain ⟨notFirst, notLater⟩ := List.forall_mem_cons.mp absent
        rw [others index notLater, Std.ExtTreeMap.getElem?_insert, if_neg]
        rwa [Std.compare_eq_iff_eq]

/-- The first bad divisor is refused. -/
theorem withAll_eq_error
    {before : List (String × Float)}
    (good : ∀ entry ∈ before, IsPositiveFinite entry.2)
    {entry : String × Float}
    (bad : ¬IsPositiveFinite entry.2)
    (after : List (String × Float))
    (divisors : Divisors) :
    divisors.withAll (before ++ entry :: after) = .error (.badDivisor entry.1 entry.2) := by
  induction before generalizing divisors with
  | nil =>
      rw [List.nil_append, withAll, List.foldlM_cons, withOwn,
        Divisor.check_of_not_isPositiveFinite _ bad]
      rfl
  | cons earlier before inductionHypothesis =>
      obtain ⟨goodFirst, goodOthers⟩ := List.forall_mem_cons.mp good
      rw [List.cons_append, withAll, List.foldlM_cons, withOwn,
        Divisor.check_of_isPositiveFinite _ goodFirst]
      exact inductionHypothesis goodOthers _

end Divisors

namespace IndexConfig

open DivisorOverride (Written lastValue?)

/-- Every divisor of the configuration is good. -/
structure IsValid (config : IndexConfig) : Prop where
  common : ∀ value, config.defaultDivisor = some value → IsPositiveFinite value
  own : ∀ (index : String) (value : Float),
    config.divisors[index]? = some value → IsPositiveFinite value

/-- The failure blames the common divisor, or else the first of the bad divisors of single
indexes, in the order of the bytes of their names. -/
inductive Blames (config : IndexConfig) : Failure → Prop
  | common
      {value : Float}
      (given : config.defaultDivisor = some value)
      (bad : ¬IsPositiveFinite value) :
      Blames config (.badDivisor "*" value)
  | own
      {index : String} {value : Float}
      (common : ∀ value, config.defaultDivisor = some value → IsPositiveFinite value)
      (given : config.divisors[index]? = some value)
      (bad : ¬IsPositiveFinite value)
      (isLeast : ∀ (other : String) (value : Float), config.divisors[other]? = some value →
        ¬IsPositiveFinite value → other ≠ index → Text.bytes index < Text.bytes other) :
      Blames config (.badDivisor index value)

/-- The divisor of an index: that of its last override, else its own one in the configuration,
else the common one, else that of the Dow Jones Industrial Average. -/
def effectiveDivisor
    (config : IndexConfig)
    (overrides : List DivisorOverride)
    (index : String) : Float :=
  (((lastValue? overrides index).or config.divisors[index]?).or config.defaultDivisor).getD
    Divisor.dowJones.value

/-- The divisors of single indexes are checked in the order of the bytes of their names. -/
theorem bytes_lt_of_toList_eq
    {values : Std.ExtTreeMap String Float}
    {before after : List (String × Float)}
    {entry : String × Float}
    (split : values.toList = before ++ entry :: after)
    {later : String × Float}
    (member : later ∈ after) :
    Text.bytes entry.1 < Text.bytes later.1 := by
  have ordered := values.ordered_keys_toList
  rw [split] at ordered
  have smaller := (List.pairwise_cons.mp (List.pairwise_append.mp ordered).2.1).1 later member
  exact Text.bytes_lt_of_compare smaller

/-- The divisors of single indexes are all put beside the common one, or the first bad one is
refused. -/
theorem withAll_toList_cases (values : Std.ExtTreeMap String Float) (common : Divisor) :
    (∃ divisors, Divisors.withAll { common } values.toList = .ok divisors ∧
      (∀ (index : String) (value : Float), values[index]? = some value →
        IsPositiveFinite value) ∧
      ∀ index, divisors.forIndex index = values[index]?.getD common.value) ∨
    ∃ index value, Divisors.withAll { common } values.toList = .error (.badDivisor index value) ∧
      values[index]? = some value ∧ ¬IsPositiveFinite value ∧
      ∀ (other : String) (value : Float), values[other]? = some value →
        ¬IsPositiveFinite value → other ≠ index → Text.bytes index < Text.bytes other := by
  have mem_iff : ∀ (index : String) (value : Float),
      (index, value) ∈ values.toList ↔ values[index]? = some value :=
    fun _ _ => Std.ExtTreeMap.mem_toList_iff_getElem?_eq_some
  rcases forall_or_exists_first (fun entry => IsPositiveFinite entry.2) values.toList with
    good | ⟨before, ⟨index, value⟩, after, split, good, bad⟩
  · have distinct : values.toList.Pairwise fun first second => first.1 ≠ second.1 :=
      values.distinct_keys_toList.imp fun differ same => differ (Std.compare_eq_iff_eq.mpr same)
    obtain ⟨divisors, checked, sameCommon, own, others⟩ :=
      Divisors.exists_withAll distinct good { common }
    refine .inl ⟨divisors, checked, ?_, fun index => ?_⟩
    · intro index value given
      exact good (index, value) ((mem_iff index value).mpr given)
    · rw [Divisors.forIndex, sameCommon]
      cases given : values[index]? with
      | none =>
          rw [others index ?_]
          · rfl
          · rintro ⟨name, value⟩ member rfl
            rw [(mem_iff name value).mp member] at given
            cases given
      | some value =>
          have isOwn := own (index, value) ((mem_iff index value).mpr given)
          obtain ⟨divisor, found, isValue⟩ := Option.map_eq_some_iff.mp isOwn
          rw [found]
          exact isValue
  · refine .inr ⟨index, value, ?_, ?_, bad, ?_⟩
    · rw [split]
      exact Divisors.withAll_eq_error good bad after _
    · rw [← mem_iff, split]
      exact List.mem_append_right _ List.mem_cons_self
    · intro other otherValue given otherBad isOther
      have member := (mem_iff other otherValue).mpr given
      rw [split, List.mem_append, List.mem_cons] at member
      rcases member with isBefore | same | isAfter
      · exact absurd (good _ isBefore) otherBad
      · exact absurd (congrArg Prod.fst same) isOther
      · exact bytes_lt_of_toList_eq split isAfter

section

variable {config : IndexConfig}

/-- With a good common divisor, it is left to check those of single indexes. -/
theorem validDivisors_cases_of_common
    (common : Divisor)
    (start : config.validDivisors = Divisors.withAll { common } config.divisors.toList)
    (commonGood : ∀ value, config.defaultDivisor = some value → IsPositiveFinite value)
    (isCommon : common.value = config.defaultDivisor.getD Divisor.dowJones.value) :
    (∃ divisors, config.validDivisors = .ok divisors ∧ config.IsValid ∧
      ∀ index, divisors.forIndex index =
        (config.divisors[index]?.or config.defaultDivisor).getD Divisor.dowJones.value) ∨
    ∃ failure, config.validDivisors = .error failure ∧ config.Blames failure := by
  rw [start]
  rcases withAll_toList_cases config.divisors common with
    ⟨divisors, checked, ownGood, inForce⟩ | ⟨index, value, refused, given, bad, isLeast⟩
  · refine .inl ⟨divisors, checked, ⟨commonGood, ownGood⟩, fun index => ?_⟩
    rw [inForce, isCommon]
    cases config.divisors[index]? <;> rfl
  · exact .inr ⟨_, refused, .own commonGood given bad isLeast⟩

/-- The divisors are all valid and in force, or the right one of them is blamed. -/
theorem validDivisors_cases (config : IndexConfig) :
    (∃ divisors, config.validDivisors = .ok divisors ∧ config.IsValid ∧
      ∀ index, divisors.forIndex index =
        (config.divisors[index]?.or config.defaultDivisor).getD Divisor.dowJones.value) ∨
    ∃ failure, config.validDivisors = .error failure ∧ config.Blames failure := by
  cases given : config.defaultDivisor with
  | none =>
      rw [← given]
      refine validDivisors_cases_of_common Divisor.dowJones ?_ ?_ ?_
      · rw [validDivisors, given]
        rfl
      · intro value isGiven
        rw [given] at isGiven
        cases isGiven
      · rw [given]
        rfl
  | some common =>
      rw [← given]
      by_cases good : IsPositiveFinite common
      · refine validDivisors_cases_of_common
          ⟨common, (isDivisor_iff common).mpr good⟩ ?_ ?_ ?_
        · simp only [validDivisors, given, Divisors.new, Divisor.check_of_isPositiveFinite _ good]
          rfl
        · intro value isGiven
          rw [given] at isGiven
          cases isGiven
          exact good
        · rw [given]
          rfl
      · refine .inr ⟨_, ?_, .common given good⟩
        simp only [validDivisors, given, Divisors.new, Divisor.check_of_not_isPositiveFinite _ good]
        rfl

/-- Valid divisors are not blamed. -/
theorem Blames.not_isValid {failure : Failure} (blames : config.Blames failure) :
    ¬config.IsValid := by
  intro valid
  cases blames with
  | common given bad => exact bad (valid.common _ given)
  | own _ given bad _ => exact bad (valid.own _ _ given)

/-- One divisor is blamed, and no other. -/
theorem Blames.unique
    {first second : Failure}
    (isFirst : config.Blames first)
    (isSecond : config.Blames second) :
    first = second := by
  cases isFirst with
  | common given bad =>
      cases isSecond with
      | common otherGiven _ =>
          rw [given] at otherGiven
          cases otherGiven
          rfl
      | own commonGood _ _ _ => exact absurd (commonGood _ given) bad
  | @own index value commonGood given bad isLeast =>
      cases isSecond with
      | common otherGiven otherBad => exact absurd (commonGood _ otherGiven) otherBad
      | @own other otherValue _ otherGiven otherBad otherLeast =>
          by_cases same : other = index
          · subst same
            rw [given] at otherGiven
            cases otherGiven
            rfl
          · have smaller := isLeast other otherValue otherGiven otherBad same
            have greater := otherLeast index value given bad (Ne.symm same)
            exact absurd greater (List.lt_asymm smaller)

theorem validDivisors_eq_error_iff (failure : Failure) :
    config.validDivisors = .error failure ↔ config.Blames failure := by
  rcases validDivisors_cases config with
    ⟨divisors, checked, valid, _⟩ | ⟨other, refused, blames⟩
  · rw [checked]
    exact ⟨nofun, fun blames => absurd valid blames.not_isValid⟩
  · rw [refused]
    constructor
    · rintro ⟨⟩
      exact blames
    · intro alsoBlames
      rw [blames.unique alsoBlames]

end

/-- Overrides are applied up to the first malformed one, which is refused, and change nothing but
the divisors. The result is accepted if all divisors that are given are positive and finite;
then this is also what every index gets, and otherwise the right divisor is blamed. -/
theorem overrideAll_validDivisors (config : IndexConfig) (raws : List String) :
    (∀ invalid, config.overrideAll raws = .error invalid ↔
      ∃ before raw after, raws = before ++ raw :: after ∧
        (∀ earlier ∈ before, ∃ override, Written earlier override) ∧
        (∀ override, ¬Written raw override) ∧ invalid = .malformedDivisor raw) ∧
    (∀ final, config.overrideAll raws = .ok final ↔
      ∃ overrides, List.Forall₂ Written raws overrides ∧ config.Overridden overrides final) ∧
    ∀ overrides final, config.Overridden overrides final →
      ((∃ divisors, final.validDivisors = .ok divisors) ↔ final.IsValid) ∧
      (∀ divisors, final.validDivisors = .ok divisors → ∀ index,
        divisors.forIndex index = config.effectiveDivisor overrides index ∧
          IsPositiveFinite (divisors.forIndex index)) ∧
      ∀ failure, final.validDivisors = .error failure ↔ final.Blames failure := by
  refine ⟨?malformed, ?applied, ?checked⟩
  case malformed =>
    intro invalid
    constructor
    · intro refused
      rcases overrideAll_cases config raws with
        ⟨_, _, _, applied, _⟩ | ⟨before, raw, after, split, wellFormed, malformed, refusedFirst⟩
      · cases applied.symm.trans refused
      · cases refusedFirst.symm.trans refused
        exact ⟨before, raw, after, split, wellFormed, malformed, rfl⟩
    · rintro ⟨before, raw, after, rfl, wellFormed, malformed, rfl⟩
      exact overrideAll_eq_error wellFormed malformed after config
  case applied =>
    intro final
    constructor
    · intro applied
      rcases overrideAll_cases config raws with
        ⟨overrides, other, written, alsoApplied, overridden⟩ | ⟨_, _, _, _, _, _, refused⟩
      · cases alsoApplied.symm.trans applied
        exact ⟨overrides, written, overridden⟩
      · cases refused.symm.trans applied
    · rintro ⟨overrides, written, overridden⟩
      obtain ⟨other, applied, alsoOverridden⟩ := exists_overrideAll written config
      rw [applied, alsoOverridden.unique overridden]
  case checked =>
    intro overrides final overridden
    refine ⟨?_, ?_, fun failure => validDivisors_eq_error_iff failure⟩
    · rcases validDivisors_cases final with ⟨divisors, checked, valid, _⟩ | ⟨other, refused, blames⟩
      · exact ⟨fun _ => valid, fun _ => ⟨divisors, checked⟩⟩
      · rw [refused]
        exact ⟨nofun, fun valid => absurd valid blames.not_isValid⟩
    · intro divisors isChecked index
      refine ⟨?_, (divisors.own[index]?.getD divisors.common).isPositiveFinite⟩
      rcases validDivisors_cases final with ⟨other, checked, _, inForce⟩ | ⟨other, refused, _⟩
      · cases checked.symm.trans isChecked
        rw [inForce, overridden.divisors, overridden.defaultDivisor]
        rfl
      · cases refused.symm.trans isChecked

/-- An index that is overridden twice, beside one that is not, and a malformed override. -/
theorem overrideAll_validDivisors_sample :
    let config : IndexConfig := { defaultDivisor := some 2 }
    ∃ final divisors, config.overrideAll [" A = 4", "A=5"] = .ok final ∧
      final.validDivisors = .ok divisors ∧ divisors.forIndex "A" = 5 ∧
      divisors.forIndex "B" = 2 ∧
      config.overrideAll ["A=4", "A", "B"] = .error (.malformedDivisor "A") := by
  intro config
  have written : List.Forall₂ Written [" A = 4", "A=5"] [⟨"A", 4⟩, ⟨"A", 5⟩] := by
    exact .cons (DivisorOverride.parse_eq_ok_iff.mp rfl)
      (.cons (DivisorOverride.parse_eq_ok_iff.mp rfl) .nil)
  obtain ⟨final, applied, overridden⟩ := exists_overrideAll written config
  obtain ⟨accepted, inForce, _⟩ := (overrideAll_validDivisors config []).2.2 _ final overridden
  have two : IsPositiveFinite 2 := ⟨rfl, by decide +kernel⟩
  have five : IsPositiveFinite 5 := ⟨rfl, by decide +kernel⟩
  have valid : final.IsValid := by
    constructor
    · intro value given
      rw [overridden.defaultDivisor] at given
      cases given
      exact two
    · intro index value given
      rw [overridden.divisors] at given
      by_cases isOverridden : "A" = index
      · subst isOverridden
        cases given
        exact five
      · simp [lastValue?, isOverridden, config] at given
  obtain ⟨divisors, checked⟩ := accepted.mpr valid
  have malformed : config.overrideAll ["A=4", "A", "B"] = .error (.malformedDivisor "A") := by
    refine ((overrideAll_validDivisors config _).1 _).mpr
      ⟨["A=4"], "A", ["B"], rfl, ?_, ?_, rfl⟩
    · intro earlier member
      cases List.mem_singleton.mp member
      exact ⟨⟨"A", 4⟩, DivisorOverride.parse_eq_ok_iff.mp rfl⟩
    · intro override written
      cases DivisorOverride.parse_eq_ok_iff.mpr written
  exact ⟨final, divisors, applied, checked, (inForce divisors checked "A").1,
    (inForce divisors checked "B").1, malformed⟩

end IndexConfig
end CompositeIndex
