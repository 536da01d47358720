import CompositeIndex.Output.Record
import CompositeIndex.Proofs.Decimal.Overflow
import CompositeIndex.Proofs.Index.Specification

/-!
# Whether a computed index is finite

The values of the constituents are finite, and so is the divisor, but nothing looks at the sum
and at the quotient. They are numbers, and they are finite unless one of the additions or the
division leads to the limit of the doubles or beyond. An index that is not finite is written as
null in a record and as infinite on the console.
-/

namespace CompositeIndex

open Double (units limit)

/-! ## Running sums -/

/-- Each of the exact sums on the way is below the limit. -/
def SumFits (values : List Float) : Prop :=
  ∀ before next after, values = before ++ next :: after →
    (units (Aggregator.total before) + units next).natAbs < limit

/-- The exact quotient is below the limit. -/
def QuotientFits (sum divisor : Float) : Prop :=
  (units sum).natAbs * 2 ^ 1074 < limit * (units divisor).natAbs

theorem sumFits_nil : SumFits [] := by
  intro before next after split
  simp at split

theorem sumFits_concat_iff (values : List Float) (value : Float) :
    SumFits (values ++ [value]) ↔
      SumFits values ∧ (units (Aggregator.total values) + units value).natAbs < limit := by
  constructor
  · intro fits
    refine ⟨?_, fits values value [] rfl⟩
    rintro before next after rfl
    exact fits before next (after ++ [value]) (by simp)
  · rintro ⟨fits, last⟩ before next after split
    rcases List.eq_nil_or_concat after with rfl | ⟨others, other, rfl⟩
    · obtain ⟨rfl, same⟩ := List.append_inj' split rfl
      cases same
      exact last
    · rw [List.concat_eq_append, ← List.cons_append, ← List.append_assoc] at split
      obtain ⟨rfl, -⟩ := List.append_inj' split rfl
      exact fits before next others rfl

namespace Aggregator

theorem total_concat (values : List Float) (value : Float) :
    total (values ++ [value]) = total values + value :=
  List.foldl_append ..

section

variable {values : List Float}

/-- A sum of finite values is a number. -/
theorem isNaN_total (finite : ∀ value ∈ values, value.isFinite = true) :
    (total values).isNaN = false := by
  induction values using List.reverseRecOn with
  | nil => rfl
  | append_singleton values value inductionHypothesis =>
      obtain ⟨others, last⟩ := List.forall_mem_append.mp finite
      rw [total_concat]
      exact Double.isNaN_add (inductionHypothesis others) (last value (List.mem_singleton_self _))

/-- A sum of finite values is finite exactly if it overflows nowhere on the way. -/
theorem isFinite_total_iff (finite : ∀ value ∈ values, value.isFinite = true) :
    (total values).isFinite = true ↔ SumFits values := by
  induction values using List.reverseRecOn with
  | nil => exact iff_of_true rfl sumFits_nil
  | append_singleton values value inductionHypothesis =>
      obtain ⟨others, last⟩ := List.forall_mem_append.mp finite
      rw [total_concat, sumFits_concat_iff, ← inductionHypothesis others]
      exact Double.isFinite_add_iff (isNaN_total others) (last value (List.mem_singleton_self _))

end

end Aggregator

/-! ## What is computed -/

/-- A computed index is made of the latest values of its constituents. -/
theorem IsComputation.exists_found_of_ok
    {divisors : Divisors}
    {catalog : Catalog}
    {reader : Reader}
    {index : String}
    {window : Window}
    {reportEach : Bool}
    {constituents : List String}
    {computation : Computation}
    (isComputation :
      IsComputation divisors catalog reader index window reportEach constituents computation)
    {value : IndexValue}
    (ok : computation.result = .ok value) :
    ∃ found, constituents = found.map ConstituentValue.instrument ∧
      AreLatest reader window found ∧
      ∃ sum, sum = Aggregator.total (found.map ConstituentValue.value) ∧
        value =
          { index, window, sum
            divisor := divisors.forIndex index
            value := sum / divisors.forIndex index
            constituents := if reportEach then found else [] } := by
  cases isComputation with
  | noConstituents => cases ok
  | unknownInstrument => cases ok
  | failed => cases ok
  | computed found nonempty products values sum isSum =>
      cases ok
      exact ⟨found, rfl, values, sum, isSum, rfl⟩

/-! ## Nulls -/

namespace Json

/-- There is a null in the value. -/
inductive HasNull : Json → Prop
  | null : HasNull .null
  | item
      (items : List Json)
      (item : Json)
      (listed : item ∈ items)
      (inside : HasNull item) :
      HasNull (.array items)
  | member
      (members : List (String × Json))
      (name : String)
      (value : Json)
      (listed : (name, value) ∈ members)
      (inside : HasNull value) :
      HasNull (.object members)

@[simp] theorem hasNull_text (value : String) : ¬HasNull (.text value) := nofun

@[simp] theorem hasNull_number (literal : String) : ¬HasNull (.number literal) := nofun

@[simp] theorem hasNull_count (value : Nat) : ¬HasNull (count value) := nofun

@[simp] theorem hasNull_array_iff (items : List Json) :
    HasNull (.array items) ↔ ∃ item ∈ items, HasNull item := by
  constructor
  · rintro (_ | ⟨_, item, listed, inside⟩)
    exact ⟨item, listed, inside⟩
  · rintro ⟨item, listed, inside⟩
    exact .item items item listed inside

@[simp] theorem hasNull_object_iff (members : List (String × Json)) :
    HasNull (.object members) ↔ ∃ member ∈ members, HasNull member.2 := by
  constructor
  · rintro (_ | _ | ⟨_, name, value, listed, inside⟩)
    exact ⟨(name, value), listed, inside⟩
  · rintro ⟨⟨name, value⟩, listed, inside⟩
    exact .member members name value listed inside

/-- A measured value is null exactly if it is not finite. -/
@[simp] theorem hasNull_measure_iff (value : Float) :
    HasNull (measure value) ↔ value.isFinite = false := by
  unfold measure
  split
  next finite => exact iff_of_false (hasNull_number _) (by simp [finite])
  next notFinite => exact iff_of_true .null (Bool.eq_false_iff.mpr notFinite)

end Json

/-- The record of a computed index has a null for each measured value that is not finite. -/
theorem Output.Record.hasNull_computed_iff
    (id : RunId)
    (pass : Nat)
    (value : IndexValue) :
    (report id (.computed pass value)).HasNull ↔
      value.value.isFinite = false ∨ value.sum.isFinite = false ∨
        value.divisor.isFinite = false ∨
          ∃ constituent ∈ value.constituents, constituent.value.isFinite = false := by
  have noNull : ¬value.window.toJson.HasNull := by
    simp [Window.toJson]
  have inside : ∀ constituent : ConstituentValue,
      constituent.toJson.HasNull ↔ constituent.value.isFinite = false := by
    simp [ConstituentValue.toJson]
  have notEmpty : (∃ constituent ∈ value.constituents, constituent.value.isFinite = false) →
      value.constituents ≠ [] := by
    rintro ⟨constituent, listed, _⟩
    exact List.ne_nil_of_mem listed
  rw [← and_iff_right_of_imp notEmpty]
  simp [report, IndexValue.members, noNull, inside]

/-! ## Texts -/

/-- A number is shown on the console as a numeral if it is finite, and as infinite otherwise. -/
inductive IsShown (value : Float) : String → Prop
  | numeral
      (text : String)
      (finite : value.isFinite = true)
      (isNumeral : Json.Numeral text.toList) :
      IsShown value text
  | infinite (notFinite : value.isFinite = false) : IsShown value "inf"
  | negativeInfinite (notFinite : value.isFinite = false) : IsShown value "-inf"

theorem IsShown.isNumeral
    {value : Float}
    {text : String}
    (isShown : IsShown value text)
    (finite : value.isFinite = true) :
    Json.Numeral text.toList := by
  cases isShown with
  | numeral _ _ isNumeral => exact isNumeral
  | infinite notFinite => exact absurd finite (Bool.eq_false_iff.mp notFinite)
  | negativeInfinite notFinite => exact absurd finite (Bool.eq_false_iff.mp notFinite)

theorem isNumeric_plain : Json.IsNumeric Decimal.plain :=
  ⟨rfl, .inl rfl⟩

theorem isShown_write {value : Float} (number : value.isNaN = false) :
    IsShown value (Decimal.plain.write value) := by
  rcases Double.write_cases isNumeric_plain number with
    ⟨finite, isNumeral⟩ | ⟨notFinite, infinite | negative⟩
  · exact .numeral _ finite isNumeral
  · rw [infinite]
    exact .infinite notFinite
  · rw [negative]
    exact .negativeInfinite notFinite

/-! ## Main theorem -/

/-- What is finite in an index that is computed from the found values, and how it is written. -/
structure IsMeasured (found : List ConstituentValue) (value : IndexValue) : Prop where
  found_finite : ∀ constituent ∈ found, constituent.value.isFinite = true
  divisor_accepted : isDivisor value.divisor = true
  sum_isNaN : value.sum.isNaN = false
  value_isNaN : value.value.isNaN = false
  /-- The sum is finite unless an addition on the way overflows. -/
  sum_finite_iff : value.sum.isFinite = true ↔ SumFits (found.map ConstituentValue.value)
  /-- The quotient is finite unless the sum is not or the division overflows. -/
  value_finite_iff :
    value.value.isFinite = true ↔
      value.sum.isFinite = true ∧ QuotientFits value.sum value.divisor
  /-- There is a null in a record exactly if the quotient is not finite. -/
  hasNull_iff (id : RunId) (pass : Nat) :
    (Output.Record.report id (.computed pass value)).HasNull ↔ value.value.isFinite = false
  /-- The last line on the console shows the quotient. -/
  shown (pass : Nat) : ∃ text, IsShown value.value text ∧
    Output.Console.report (.computed pass value) =
      Output.Console.breakdown value ++ ["Index of " ++ value.index ++ " = " ++ text]
  /-- The lines above it show numerals. -/
  breakdown_shown : ∀ constituent ∈ found, ∃ text, Json.Numeral text.toList ∧
    Output.Console.constituent constituent =
      Text.padRight ' ' Output.Console.nameWidth constituent.instrument ++ ": value " ++ text

/-- The constituents and the divisor of a computed index are finite, but nothing looks at the sum
and at the quotient. Neither is ever something that is no number, and they are finite exactly if
nothing overflows. A record has a null, and the console shows the index as infinite, exactly if
the quotient is not finite. -/
theorem Aggregator.isMeasured_of_compute_ok
    (divisors : Divisors)
    (catalog : Catalog)
    (reader : Reader)
    (index : String)
    (constituents : List String)
    (window : Window)
    (reportEach : Bool)
    (value : IndexValue)
    (ok : ((Aggregator.new divisors catalog).compute reader index constituents window
      reportEach).result = .ok value) :
    ∃ found : List ConstituentValue,
      constituents = found.map ConstituentValue.instrument ∧
      value.constituents = (if reportEach then found else []) ∧
      IsMeasured found value := by
  obtain ⟨found, rfl, areLatest, sum, isSum, rfl⟩ :=
    (IsComputation.compute_iff _).mp (Eq.refl _) |>.exists_found_of_ok ok
  have finite : ∀ constituent ∈ found, constituent.value.isFinite = true := by
    intro constituent listed
    cases areLatest constituent listed with
    | found latest answer isFinite => exact isFinite
  have allFinite : ∀ value ∈ found.map ConstituentValue.value, value.isFinite = true :=
    List.forall_mem_map.mpr finite
  have accepted : isDivisor (divisors.forIndex index) = true :=
    (divisors.own[index]?.getD divisors.common).accepted
  have number : sum.isNaN = false := isSum ▸ isNaN_total allFinite
  have quotientFinite := Double.isFinite_div_iff number accepted
  have quotientNumber := Double.isNaN_div number accepted
  refine ⟨found, rfl, rfl, ?_⟩
  exact
    { found_finite := finite
      divisor_accepted := accepted
      sum_isNaN := number
      value_isNaN := quotientNumber
      sum_finite_iff := isSum ▸ isFinite_total_iff allFinite
      value_finite_iff := quotientFinite
      hasNull_iff := by
        intro id pass
        rw [Output.Record.hasNull_computed_iff]
        refine ⟨?_, .inl⟩
        rintro (quotient | notFinite | divisor | ⟨constituent, listed, notFinite⟩)
        · exact quotient
        · refine Bool.eq_false_iff.mpr fun isFinite => ?_
          exact Bool.eq_false_iff.mp notFinite (quotientFinite.mp isFinite).1
        · exact absurd (Bool.and_eq_true_iff.mp accepted).1 (Bool.eq_false_iff.mp divisor)
        · have member : constituent ∈ found := by
            dsimp only at listed
            split at listed
            · exact listed
            · cases listed
          exact absurd (finite constituent member) (Bool.eq_false_iff.mp notFinite)
      shown := fun pass => ⟨_, isShown_write quotientNumber, rfl⟩
      breakdown_shown := by
        intro constituent listed
        refine ⟨_, ?_, rfl⟩
        obtain ⟨_, _, size⟩ := Double.exists_magnitude_of_isFinite (finite constituent listed)
        exact Json.numeral_write isNumeric_plain size }

/-- Two ordinary values are added and divided. The record of the index has no null, and the
console shows a numeral. -/
theorem Aggregator.isMeasured_of_compute_ok_sample :
    let catalog := Catalog.ofGroups [(Tag.products, ["A", "B"])]
    let store := (MemoryStore.empty.record "A" valueColumn
      ⟨1772452800000000000, 0, by decide⟩ 100).record "B" valueColumn
        ⟨1772452740000000000, 0, by decide⟩ 50.5
    let window : Window := ⟨1772452710000000, 1772452830000000⟩
    ∃ value, ((Aggregator.new Divisors.default catalog).compute store.reader "I" ["A", "B"] window
        true).result = .ok value ∧
      value.value.isFinite = true ∧
      (∀ id pass, ¬(Output.Record.report id (.computed pass value)).HasNull) ∧
      ∀ pass, ∃ text, Json.Numeral text.toList ∧
        Output.Console.report (.computed pass value) =
          Output.Console.breakdown value ++ ["Index of " ++ value.index ++ " = " ++ text] := by
  intro catalog store window
  have computed : (((Aggregator.new Divisors.default catalog).compute store.reader "I" ["A", "B"]
      window true).result.toOption.all fun value => value.value.isFinite) = true ∧
    ((Aggregator.new Divisors.default catalog).compute store.reader "I" ["A", "B"]
      window true).result.isOk = true := by
    decide +kernel
  cases ok : ((Aggregator.new Divisors.default catalog).compute store.reader "I" ["A", "B"]
      window true).result with
  | error failure =>
      rw [ok] at computed
      cases computed.2
  | ok value =>
      rw [ok] at computed
      have finite : value.value.isFinite = true := computed.1
      obtain ⟨found, _, _, measured⟩ := Aggregator.isMeasured_of_compute_ok Divisors.default
        catalog store.reader "I" ["A", "B"] window true value ok
      refine ⟨value, rfl, finite, fun id pass hasNull => ?_, fun pass => ?_⟩
      · exact absurd finite (Bool.eq_false_iff.mp ((measured.hasNull_iff id pass).mp hasNull))
      · obtain ⟨text, isShown, lines⟩ := measured.shown pass
        exact ⟨text, isShown.isNumeral finite, lines⟩

/-- Two values below the greatest double have a sum beyond it. The index is computed all the
same, although the quotient by two would be a double again. -/
theorem Aggregator.compute_overflows :
    let catalog := Catalog.ofGroups [(Tag.products, ["A", "B"])]
    let store := (MemoryStore.empty.record "A" valueColumn
      ⟨1772452800000000000, 0, by decide⟩ 1.7e308).record "B" valueColumn
        ⟨1772452740000000000, 0, by decide⟩ 1.7e308
    let window : Window := ⟨1772452710000000, 1772452830000000⟩
    let divisors : Divisors := { common := ⟨2, by decide +kernel⟩ }
    ∃ value, ((Aggregator.new divisors catalog).compute store.reader "I" ["A", "B"] window
        false).result = .ok value ∧
      value.sum.isFinite = false ∧
      value.value.isFinite = false ∧
      (∀ id pass, (Output.Record.report id (.computed pass value)).HasNull) ∧
      ∀ pass, Output.Console.report (.computed pass value) = ["Index of I = inf"] := by
  intro catalog store window divisors
  have computed : (((Aggregator.new divisors catalog).compute store.reader "I" ["A", "B"] window
      false).result.toOption.any fun value => !value.sum.isFinite && !value.value.isFinite &&
        Output.Console.report (.computed 0 value) == ["Index of I = inf"]) = true := by
    decide +kernel
  cases ok : ((Aggregator.new divisors catalog).compute store.reader "I" ["A", "B"] window
      false).result with
  | error failure =>
      rw [ok] at computed
      cases computed
  | ok value =>
      rw [ok] at computed
      simp only [Except.toOption, Option.any_some, Bool.and_eq_true, Bool.not_eq_true',
        beq_iff_eq] at computed
      obtain ⟨⟨sum, quotient⟩, text⟩ := computed
      refine ⟨value, rfl, sum, quotient, fun id pass => ?_, fun pass => text⟩
      exact (Output.Record.hasNull_computed_iff id pass value).mpr (.inl quotient)

end CompositeIndex
