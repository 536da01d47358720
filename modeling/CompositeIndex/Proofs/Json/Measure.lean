import CompositeIndex.Proofs.Decimal.Literals
import CompositeIndex.Proofs.Decimal.Shortest
import CompositeIndex.Proofs.Json.Typed

/-!
# Measured values

A finite double is read back from its own text. Wherever the layout puts the point of its decimal,
the text is read as a number of the same value, and that number stands for the double.
-/

namespace CompositeIndex
namespace Json

open Decimal (isNegative magnitude shortest overflowPoint)
open Decimal.Literal (digitsValue digitsValue_eq splitDigits splitSign)
open Decoder (Number exponentLimit)

/-! ## Digits -/

theorem digitsValue_append (start : Nat) (front behind : List Char) :
    digitsValue start (front ++ behind) = digitsValue (digitsValue start front) behind :=
  List.foldl_append

theorem digitsValue_replicate_zero (start count : Nat) :
    digitsValue start (List.replicate count '0') = 10 ^ count * start := by
  rw [digitsValue_eq, Nat.ofDigitChars_replicate_zero]

theorem le_digitsValue (start : Nat) (digits : List Char) : start ≤ digitsValue start digits := by
  rw [digitsValue_eq, Nat.ofDigitChars_eq_ofDigitChars_zero]
  exact Nat.le_add_right_of_le (Nat.le_mul_of_pos_left start (Nat.pow_pos (by decide)))

/-- What stands behind the mark of an exponent. -/
def writtenPower (power : Int) : List Char :=
  (if power < 0 then '-' else '+') :: Nat.toDigits 10 power.natAbs

namespace Decoder

/-- A number up to the limit of exponents has no digit behind an excess. -/
theorem behindExcess?_eq_none
    {start : Nat} {digits : List Char}
    (low : digitsValue start digits ≤ exponentLimit) :
    behindExcess? start digits = none := by
  induction digits generalizing start with
  | nil => rfl
  | cons digit digits inductionHypothesis =>
      have next : digitsValue start (digit :: digits) =
          digitsValue (10 * start + Decimal.Literal.digitValue digit) digits := rfl
      rw [next] at low
      have atMost := le_digitsValue (10 * start + Decimal.Literal.digitValue digit) digits
      rw [behindExcess?, if_neg (by omega)]
      exact inductionHypothesis low

/-- An exponent is read as it is written. -/
theorem exponent_writtenPower
    (isZero : Bool)
    {power : Int}
    (low : power ≤ exponentLimit) :
    Decoder.exponent isZero (writtenPower power) = .ok (power, []) := by
  have all : ∀ char ∈ Nat.toDigits 10 power.natAbs, char.isDigit = true := isDigit_of_mem_toDigits
  have split := splitDigits_append all (stops_nil : Stops Char.isDigit [])
  have isValue := digitsValue_toDigits power.natAbs
  have notEmpty : (Nat.toDigits 10 power.natAbs).isEmpty = false :=
    List.isEmpty_eq_false_iff.mpr Nat.toDigits_ne_nil
  rw [List.append_nil] at split
  unfold writtenPower
  by_cases negative : power < 0
  · have isPower : -(power.natAbs : Int) = power := by omega
    simp only [negative, if_pos, Decoder.exponent, splitSign, split, isValue, notEmpty, isPower]
    rfl
  · have isPower : (power.natAbs : Int) = power := by omega
    have excess : behindExcess? 0 (Nat.toDigits 10 power.natAbs) = none :=
      behindExcess?_eq_none (by rw [isValue]; omega)
    simp only [negative, if_neg, not_false_eq_true, Decoder.exponent, splitSign, split, isValue,
      notEmpty, isPower, excess]
    rfl

end Decoder

/-! ## Texts of decimals -/

/-- The characters are read as a number of this value if it is accepted. -/
def SpellsNumber (chars : List Char) (number : ℚ) : Prop :=
  ∃ size : Decimal, size.toRat = number ∧
    ∀ negative, Decoder.unsigned negative chars = Decoder.inRange ⟨negative, false, size⟩ []

section

open Decoder

variable {whole fraction : List Char} {number : ℚ}

theorem stops_isDigit_cons
    {first : Char}
    (notDigit : first.isDigit = false)
    (rest : List Char) :
    Stops Char.isDigit (first :: rest) := by
  intro char isFirst
  cases isFirst
  exact notDigit

theorem afterWhole_fraction
    (negative : Bool)
    (value : Nat)
    (areDigits : isDigits fraction = true)
    {rest : List Char}
    (stops : Stops Char.isDigit rest) :
    afterWhole negative value ('.' :: (fraction ++ rest)) =
      optionalExponent negative false
        ⟨digitsValue value fraction, -(fraction.length : Int)⟩ rest := by
  obtain ⟨notEmpty, all⟩ := isDigits_iff.mp areDigits
  simp [afterWhole, splitDigits_append all stops, notEmpty]

theorem spellsNumber_fraction
    (isWhole : isWholePart whole = true)
    (areDigits : isDigits fraction = true)
    (isNumber :
      Decimal.toRat ⟨digitsValue 0 (whole ++ fraction), -(fraction.length : Int)⟩ = number) :
    SpellsNumber (whole ++ '.' :: fraction) number := by
  rw [digitsValue_append] at isNumber
  refine ⟨_, isNumber, fun negative => ?_⟩
  have read := afterWhole_fraction negative (digitsValue 0 whole) areDigits stops_nil
  rw [List.append_nil] at read
  rw [unsigned_append isWhole (stops_isDigit_cons rfl _), read]
  rfl

theorem spellsNumber_power
    {power : Int}
    (isWhole : isWholePart whole = true)
    (all : ∀ char ∈ fraction, char.isDigit = true)
    (low : power ≤ exponentLimit)
    (isNumber :
      Decimal.toRat ⟨digitsValue 0 (whole ++ fraction), -(fraction.length : Int) + power⟩ =
        number) :
    SpellsNumber
      (whole ++ ((if fraction.isEmpty then [] else '.' :: fraction) ++
        'e' :: writtenPower power)) number := by
  have marked := stops_isDigit_cons (show 'e'.isDigit = false from rfl) (writtenPower power)
  have exponential (negative isIntegral : Bool) (size : Decimal) :
      optionalExponent negative isIntegral size ('e' :: writtenPower power) =
        inRange ⟨negative, false, ⟨size.digits, size.exponent + power⟩⟩ [] := by
    rw [optionalExponent, if_pos (by decide), exponent_writtenPower _ low]
  rw [digitsValue_append] at isNumber
  refine ⟨_, isNumber, fun negative => ?_⟩
  cases none : fraction.isEmpty with
  | true =>
      rw [List.isEmpty_iff.mp none, if_pos rfl, List.nil_append, unsigned_append isWhole marked]
      exact exponential negative true _
  | false =>
      have areDigits := isDigits_iff.mpr ⟨List.isEmpty_eq_false_iff.mp none, all⟩
      rw [if_neg Bool.false_ne_true, List.cons_append,
        unsigned_append isWhole (stops_isDigit_cons rfl _),
        afterWhole_fraction _ _ areDigits marked]
      exact exponential negative false _

end

section

variable {digits : List Char} {decimal : Decimal}

/-- The point stands in front of all digits. -/
theorem spellsNumber_small
    (significant : AreSignificant digits)
    (isValue : digitsValue 0 digits = decimal.digits)
    {count : Nat}
    (isExponent : decimal.exponent = -(count + digits.length : Nat)) :
    SpellsNumber ('0' :: '.' :: (List.replicate count '0' ++ digits)) decimal.toRat := by
  have areDigits : isDigits (List.replicate count '0' ++ digits) = true :=
    isDigits_iff.mpr ⟨List.append_ne_nil_of_right_ne_nil _ significant.ne_nil,
      List.forall_mem_append.mpr ⟨isDigit_of_mem_zeros, significant.isDigit⟩⟩
  have sameDigits : digitsValue 0 (['0'] ++ (List.replicate count '0' ++ digits)) =
      decimal.digits := by
    rw [digitsValue_append, digitsValue_append, digitsValue_replicate_zero]
    exact isValue
  refine spellsNumber_fraction (show isWholePart ['0'] = true from rfl) areDigits ?_
  rw [sameDigits, List.length_append, List.length_replicate, ← isExponent]

/-- The point stands behind all digits, with zeros between them. -/
theorem spellsNumber_integral
    (significant : AreSignificant digits)
    (isValue : digitsValue 0 digits = decimal.digits)
    {count : Nat}
    (isExponent : decimal.exponent = count) :
    SpellsNumber (digits ++ List.replicate count '0' ++ ['.', '0']) decimal.toRat := by
  have sameDigits : digitsValue 0 (digits ++ List.replicate count '0' ++ ['0']) =
      10 ^ count * decimal.digits * 10 := by
    rw [digitsValue_append, digitsValue_append, isValue, digitsValue_replicate_zero]
    exact Nat.mul_comm _ _
  refine spellsNumber_fraction (significant.isWholePart_append_zeros count)
    (show isDigits ['0'] = true from rfl) ?_
  rw [sameDigits, Decimal.toRat, Decimal.toRat, isExponent, zpow_natCast, List.length_singleton,
    Nat.cast_one, zpow_neg, zpow_one]
  push_cast
  ring

/-- The point stands among the digits. -/
theorem spellsNumber_divided
    (significant : AreSignificant digits)
    (isValue : digitsValue 0 digits = decimal.digits)
    {count : Nat}
    (some : 0 < count)
    (notAll : count < digits.length)
    (isExponent : decimal.exponent = -(digits.length - count : Nat)) :
    SpellsNumber (digits.take count ++ '.' :: digits.drop count) decimal.toRat := by
  have areDigits : isDigits (digits.drop count) = true :=
    isDigits_iff.mpr ⟨by simpa using notAll,
      fun char member => significant.isDigit char (List.mem_of_mem_drop member)⟩
  refine spellsNumber_fraction (significant.isWholePart_take some) areDigits ?_
  rw [List.take_append_drop, isValue, List.length_drop, ← isExponent]

theorem spellsNumber_positional
    (significant : AreSignificant digits)
    (isValue : digitsValue 0 digits = decimal.digits)
    {point : Int}
    (isPoint : point = digits.length + decimal.exponent) :
    SpellsNumber (measureLayout.positional digits point).toList decimal.toRat := by
  unfold Decimal.Layout.positional
  split
  next =>
    have spelled := spellsNumber_small significant isValue
      (by omega : decimal.exponent = -(point.natAbs + digits.length : Nat))
    simpa using spelled
  next =>
    split
    next =>
      have spelled := spellsNumber_integral significant isValue
        (by omega : decimal.exponent = (point.toNat - digits.length : Nat))
      simpa [measureLayout] using spelled
    next =>
      have spelled := spellsNumber_divided significant isValue (by omega) (by omega)
        (by omega : decimal.exponent = -(digits.length - point.toNat : Nat))
      simpa using spelled

theorem spellsNumber_scientific
    (significant : AreSignificant digits)
    (isValue : digitsValue 0 digits = decimal.digits)
    {point : Int}
    (isPoint : point = digits.length + decimal.exponent)
    (low : point ≤ exponentLimit) :
    SpellsNumber (measureLayout.scientific digits point).toList decimal.toRat := by
  have text : (measureLayout.scientific digits point).toList =
      digits.take 1 ++ ((if (digits.drop 1).isEmpty then [] else '.' :: digits.drop 1) ++
        'e' :: writtenPower (point - 1)) := by
    unfold Decimal.Layout.scientific writtenPower Text.signedDigits
    by_cases negative : point - 1 < 0 <;> cases digits.drop 1 <;>
      simp [negative, measureLayout, toList_digits]
  have some : 0 < digits.length := List.length_pos_iff.mpr significant.ne_nil
  rw [text]
  refine spellsNumber_power (significant.isWholePart_take Nat.one_pos)
    (fun char member => significant.isDigit char (List.mem_of_mem_drop member)) (by omega) ?_
  have sameExponent : -((digits.drop 1).length : Int) + (point - 1) = decimal.exponent := by
    rw [List.length_drop]
    omega
  rw [List.take_append_drop, isValue, sameExponent]

/-- The text of a decimal is read as a number of the same value if its point is not too far
behind. -/
theorem spellsNumber_writeDecimal
    (decimal : Decimal)
    (low : 0 < decimal.digits → decimal.point < overflowPoint) :
    SpellsNumber (measureLayout.writeDecimal decimal).toList decimal.toRat := by
  unfold Decimal.Layout.writeDecimal
  split
  next zero =>
    have spelled : SpellsNumber (['0'] ++ '.' :: ['0']) decimal.toRat := by
      refine spellsNumber_fraction rfl rfl ?_
      rw [Decimal.toRat, Decimal.toRat, zero]
      exact (zero_mul _).trans (zero_mul _).symm
    exact spelled
  next notZero =>
    have positive := Nat.pos_of_ne_zero notZero
    have significant := areSignificant_toDigits positive
    have isValue := digitsValue_toDigits decimal.digits
    dsimp only
    split
    next => exact spellsNumber_positional significant isValue rfl
    next =>
      have below : decimal.point < 310 := low positive
      have limit : (310 : Int) ≤ exponentLimit := by decide
      exact spellsNumber_scientific significant isValue rfl (by omega)

end

/-! ## Doubles -/

/-- Every finite double is read back from its own text. -/
theorem readsBack_of_isFinite {value : Float} (finite : value.isFinite = true) :
    ReadsBack value := by
  obtain ⟨significand, exponent, isMagnitude⟩ := Double.exists_magnitude_of_isFinite finite
  have denotes := Decimal.denotes_shortest measureLayout.tie finite isMagnitude
  have isUnsigned := unsigned_writeDecimal isNumeric_measureLayout
    (shortest measureLayout.tie (value.toBits.toNat % Nat.pow 2 63) significand exponent)
  unfold ReadsBack Decimal.Layout.write
  rw [isMagnitude]
  dsimp only
  generalize shortest measureLayout.tie _ significand exponent = decimal at denotes isUnsigned ⊢
  obtain ⟨size, sameValue, isRead⟩ := spellsNumber_writeDecimal decimal (denotes.point_lt finite)
  have isValue : Number.toFloat ⟨isNegative value, false, size⟩ = value :=
    Decimal.Literal.denotes_iff.mp (denotes.congr sameValue)
  have accepted : Decoder.unsigned (isNegative value) (measureLayout.writeDecimal decimal).toList =
      .ok (⟨isNegative value, false, size⟩, []) := by
    rw [isRead, Decoder.inRange, isValue, if_pos finite]
  refine Decoder.whole_eq_ok_iff.mpr ⟨[], ?_, rfl⟩
  cases marked : isNegative value with
  | true =>
      rw [marked] at accepted isValue
      have text : ("-" ++ measureLayout.writeDecimal decimal).toList =
          '-' :: (measureLayout.writeDecimal decimal).toList := by simp
      rw [if_pos rfl, text, Decoder.float_minus, accepted]
      exact congrArg (fun found => Except.ok (found, [])) isValue
  | false =>
      rw [marked] at accepted isValue
      rw [if_neg Bool.false_ne_true, String.empty_append]
      obtain ⟨first, others, spelled, isDigit⟩ := isUnsigned.exists_digit
      rw [spelled] at accepted ⊢
      rw [Decoder.float_of_isDigit isDigit, accepted]
      exact congrArg (fun found => Except.ok (found, [])) isValue

end Json
end CompositeIndex
