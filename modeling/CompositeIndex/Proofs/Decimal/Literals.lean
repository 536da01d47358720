import Mathlib
import CompositeIndex.Decimal.Literal
import CompositeIndex.Proofs.Json.Numeral
import CompositeIndex.Proofs.Text.Trimming

/-!
# The grammar of number literals

A literal is read if and only if it is spelled by the grammar: an optional sign, then a word in any
letter case, or digits with an optional point, at least one of them, and an optional exponent. What
is read is the number that its digits make up, moved by its exponent. There are no blanks in a
literal, so that none is lost when the blanks around it are taken off.
-/

namespace CompositeIndex
namespace Decimal
namespace Literal

open Json (Stops)

/-! ## The grammar -/

def AreDigits (chars : List Char) : Prop :=
  ∀ char ∈ chars, char.isDigit = true

/-- An optional sign; without one a number is not negative. -/
inductive Signs : (negative : Bool) → List Char → Prop
  | none : Signs false []
  | plus : Signs false ['+']
  | minus : Signs true ['-']

/-- The letters of the word, each of them small or capital. -/
def InAnyCase (word chars : List Char) : Prop :=
  List.Forall₂ (fun letter char => char = letter ∨ char = letter.toUpper) word chars

/-- An optional point, with the digits behind it. -/
inductive Fractional : (digits : List Char) → List Char → Prop
  | none : Fractional [] []
  | point
      {digits : List Char}
      (areDigits : AreDigits digits) :
      Fractional digits ('.' :: digits)

/-- An optional power of ten; there is at least one digit behind the mark. -/
inductive Exponential : (power : Int) → List Char → Prop
  | none : Exponential 0 []
  | power
      {mark : Char} {negative : Bool} {sign digits : List Char}
      (isMark : mark = 'e' ∨ mark = 'E')
      (signed : Signs negative sign)
      (nonempty : digits ≠ [])
      (areDigits : AreDigits digits) :
      Exponential
        (if negative then -(Nat.ofDigitChars 10 digits 0) else Nat.ofDigitChars 10 digits 0)
        (mark :: (sign ++ digits))

/-- Digits with an optional point, at least one of them, and an optional exponent. Every digit
behind the point moves the number by one power of ten. -/
inductive Positional : Decimal → List Char → Prop
  | intro
      {whole digits fraction exponent : List Char} {power : Int}
      (areDigits : AreDigits whole)
      (fractional : Fractional digits fraction)
      (nonempty : whole ++ digits ≠ [])
      (exponential : Exponential power exponent) :
      Positional ⟨Nat.ofDigitChars 10 (whole ++ digits) 0, power - digits.length⟩
        (whole ++ (fraction ++ exponent))

/-- The characters spell the literal. -/
inductive Spells : Literal → List Char → Prop
  | nan
      {negative : Bool} {sign word : List Char}
      (signed : Signs negative sign)
      (isWord : InAnyCase "nan".toList word) :
      Spells .nan (sign ++ word)
  | infinite
      {negative : Bool} {sign word : List Char}
      (signed : Signs negative sign)
      (isWord : InAnyCase "inf".toList word ∨ InAnyCase "infinity".toList word) :
      Spells (.infinite negative) (sign ++ word)
  | number
      {negative : Bool} {sign chars : List Char} {decimal : Decimal}
      (signed : Signs negative sign)
      (positional : Positional decimal chars) :
      Spells (.number negative decimal) (sign ++ chars)

/-! ## Signs -/

/-- The character is a sign. -/
def isSign (char : Char) : Bool :=
  char == '-' || char == '+'

section

variable {negative : Bool} {sign chars : List Char}

theorem splitSign_of_stops (stops : Stops isSign chars) : splitSign chars = (false, chars) := by
  unfold splitSign
  split
  next => cases stops '-' rfl
  next => cases stops '+' rfl
  next => rfl

theorem Signs.splitSign_append (signed : Signs negative sign) (stops : Stops isSign chars) :
    splitSign (sign ++ chars) = (negative, chars) := by
  cases signed with
  | none => exact splitSign_of_stops stops
  | plus => rfl
  | minus => rfl

theorem exists_signs (chars : List Char) :
    ∃ negative sign behind, Signs negative sign ∧ chars = sign ++ behind ∧
      splitSign chars = (negative, behind) := by
  unfold splitSign
  split
  next rest => exact ⟨true, ['-'], rest, .minus, rfl, rfl⟩
  next rest => exact ⟨false, ['+'], rest, .plus, rfl, rfl⟩
  next => exact ⟨false, [], chars, .none, rfl, rfl⟩

theorem not_isSign_of_isDigit {char : Char} (isDigit : char.isDigit = true) :
    isSign char = false := by
  refine Bool.eq_false_iff.mpr fun isSigned => ?_
  rcases Bool.or_eq_true_iff.mp isSigned with isMinus | isPlus
  · cases eq_of_beq isMinus
    cases isDigit
  · cases eq_of_beq isPlus
    cases isDigit

theorem AreDigits.stops_isSign {digits : List Char} (areDigits : AreDigits digits) :
    Stops isSign digits :=
  fun char isFirst => not_isSign_of_isDigit (areDigits char (List.mem_of_mem_head? isFirst))

end

/-! ## Words -/

theorem toLower_eq_iff {char letter : Char} (isLower : letter.isLower = true) :
    char.toLower = letter ↔ char = letter ∨ char = letter.toUpper := by
  have unchanged : letter.toLower = letter :=
    Char.toLower_eq_of_not_isUpper (Char.not_isUpper_of_isLower isLower)
  constructor
  · rintro rfl
    by_cases isUpper : char.isUpper = true
    · have capital : char.toUpper = char :=
        Char.toUpper_eq_of_not_isLower (Char.not_isLower_of_isUpper isUpper)
      exact .inr (by rw [Char.toUpper_toLower_eq_toUpper, capital])
    · exact .inl (Char.toLower_eq_of_not_isUpper isUpper).symm
  · rintro (rfl | rfl)
    · exact unchanged
    · rw [Char.toLower_toUpper_eq_toLower, unchanged]

theorem map_toLower_eq_iff
    {word chars : List Char}
    (areLower : ∀ letter ∈ word, letter.isLower = true) :
    chars.map Char.toLower = word ↔ InAnyCase word chars := by
  induction word generalizing chars with
  | nil => simp [InAnyCase]
  | cons letter word inductionHypothesis =>
      obtain ⟨isLower, othersLower⟩ := List.forall_mem_cons.mp areLower
      cases chars with
      | nil => simp [InAnyCase]
      | cons char chars =>
          have others := @inductionHypothesis chars othersLower
          simp only [InAnyCase] at others
          simp [InAnyCase, toLower_eq_iff isLower, others]

theorem InAnyCase.isAlpha
    {word chars : List Char}
    (spelled : InAnyCase word chars)
    (areLower : ∀ letter ∈ word, letter.isLower = true) :
    ∀ char ∈ chars, char.isAlpha = true := by
  intro char member
  rw [← Char.isLower_toLower_eq_isAlpha]
  exact areLower _ ((map_toLower_eq_iff areLower).mpr spelled ▸ List.mem_map_of_mem member)

theorem inRange_of_isAlpha {char : Char} (isAlpha : char.isAlpha = true) :
    65 ≤ char.toNat ∧ char.toNat ≤ 122 := by
  simp only [Char.isAlpha, Char.isUpper, Char.isLower, UInt32.le_iff_toNat_le, Char.toNat_val,
    Bool.or_eq_true, Bool.and_eq_true, decide_eq_true_eq] at isAlpha
  change 65 ≤ char.toNat ∧ char.toNat ≤ 90 ∨ 97 ≤ char.toNat ∧ char.toNat ≤ 122 at isAlpha
  omega

/-! ## Numbers -/

theorem digitsValue_eq (start : Nat) (digits : List Char) :
    digitsValue start digits = Nat.ofDigitChars 10 digits start :=
  Nat.ofDigitChars_eq_foldl.symm

section

variable {chars : List Char}

theorem isDigits_iff {digits : List Char} :
    (digits.isEmpty || !digits.all Char.isDigit) = false ↔ digits ≠ [] ∧ AreDigits digits := by
  simp [AreDigits]

theorem exponent?_eq_some_iff {power : Int} :
    exponent? chars = some power ↔ Exponential power chars := by
  constructor
  · intro isRead
    unfold exponent? at isRead
    split at isRead
    next =>
      cases isRead
      exact .none
    next mark rest =>
      split at isRead
      next isMark =>
        obtain ⟨negative, sign, digits, signed, rfl, isSplit⟩ := exists_signs rest
        rw [isSplit] at isRead
        dsimp only at isRead
        split at isRead
        next => cases isRead
        next areDigits =>
          cases isRead
          obtain ⟨nonempty, areDigits⟩ := isDigits_iff.mp (Bool.eq_false_iff.mpr areDigits)
          rw [digitsValue_eq]
          exact .power (by simpa using isMark) signed nonempty areDigits
      next => cases isRead
  · intro exponential
    cases exponential with
    | none => rfl
    | power isMark signed nonempty areDigits =>
        have split := signed.splitSign_append areDigits.stops_isSign
        have accepted := isDigits_iff.mpr ⟨nonempty, areDigits⟩
        simp [exponent?, isMark, split, accepted, digitsValue_eq]

/-- An exponent starts with its mark. -/
theorem Exponential.stops
    {power : Int} {holds : Char → Bool}
    (lower : holds 'e' = false)
    (upper : holds 'E' = false)
    (exponential : Exponential power chars) :
    Stops holds chars := by
  cases exponential with
  | none => exact nofun
  | power isMark =>
      intro char isFirst
      cases isFirst
      rcases isMark with rfl | rfl
      · exact lower
      · exact upper

theorem exists_fractional (chars : List Char) :
    ∃ digits fraction behind, Fractional digits fraction ∧ chars = fraction ++ behind ∧
      splitFraction chars = (digits, behind) := by
  unfold splitFraction
  split
  next rest =>
    refine ⟨_, '.' :: rest.takeWhile Char.isDigit, rest.dropWhile Char.isDigit,
      .point fun _ => List.mem_takeWhile_imp, ?_, rfl⟩
    rw [List.cons_append, List.takeWhile_append_dropWhile]
  next => exact ⟨[], [], chars, .none, rfl, rfl⟩

theorem Fractional.splitFraction_append
    {digits fraction exponent : List Char} {power : Int}
    (fractional : Fractional digits fraction)
    (exponential : Exponential power exponent) :
    splitFraction (fraction ++ exponent) = (digits, exponent) := by
  cases fractional with
  | none =>
      have stops : Stops (· == '.') exponent := exponential.stops rfl rfl
      rw [List.nil_append]
      unfold splitFraction
      split
      next => cases stops '.' rfl
      next => rfl
  | point areDigits => exact Json.splitDigits_append areDigits (exponential.stops rfl rfl)

theorem Fractional.stops_append
    {digits fraction exponent : List Char} {power : Int}
    (fractional : Fractional digits fraction)
    (exponential : Exponential power exponent) :
    Stops Char.isDigit (fraction ++ exponent) := by
  cases fractional with
  | none => exact exponential.stops rfl rfl
  | point areDigits =>
      intro char isFirst
      cases isFirst
      rfl

theorem decimal?_eq_some_iff {decimal : Decimal} :
    decimal? chars = some decimal ↔ Positional decimal chars := by
  constructor
  · intro isRead
    have areDigits : AreDigits (chars.takeWhile Char.isDigit) := fun _ => List.mem_takeWhile_imp
    obtain ⟨digits, fraction, exponent, fractional, behind, isSplit⟩ :=
      exists_fractional (chars.dropWhile Char.isDigit)
    simp only [decimal?, splitDigits, isSplit] at isRead
    split at isRead
    next => cases isRead
    next someDigit =>
      obtain ⟨power, isPower, rfl⟩ := Option.map_eq_some_iff.mp isRead
      have nonempty : chars.takeWhile Char.isDigit ++ digits ≠ [] := by
        simpa [List.append_eq_nil_iff] using someDigit
      have positional := Positional.intro areDigits fractional nonempty
        (exponent?_eq_some_iff.mp isPower)
      rw [← behind, List.takeWhile_append_dropWhile, Nat.ofDigitChars_append] at positional
      simpa only [digitsValue_eq] using positional
  · intro positional
    cases positional with
    | @intro whole digits fraction exponent power areDigits fractional nonempty exponential =>
        have isSplit := Json.splitDigits_append areDigits (fractional.stops_append exponential)
        have someDigit : ¬(whole.isEmpty && digits.isEmpty) = true := by
          simpa [List.append_eq_nil_iff] using nonempty
        simp only [decimal?, isSplit, fractional.splitFraction_append exponential,
          if_neg someDigit, exponent?_eq_some_iff.mpr exponential, digitsValue_eq,
          Nat.ofDigitChars_append, Option.map_some]

theorem Positional.exists_first {decimal : Decimal} (positional : Positional decimal chars) :
    ∃ first others, chars = first :: others ∧ (first.isDigit = true ∨ first = '.') := by
  cases positional with
  | @intro whole digits fraction exponent power areDigits fractional nonempty =>
      cases whole with
      | cons first others =>
          exact ⟨first, _, rfl, .inl (areDigits first List.mem_cons_self)⟩
      | nil =>
          cases fractional with
          | none => exact absurd rfl nonempty
          | point => exact ⟨'.', _, rfl, .inr rfl⟩

end

/-! ## Literals -/

/-- The words that are literals. -/
def words : List (List Char) := ["inf".toList, "infinity".toList, "nan".toList]

theorem isLower_of_mem_words
    {word : List Char}
    (isWord : word ∈ words) :
    ∀ letter ∈ word, letter.isLower = true := by
  have areLower : words.all (fun word => word.all Char.isLower) = true := by decide
  exact List.all_eq_true.mp (List.all_eq_true.mp areLower word isWord)

section

variable {word chars : List Char}

theorem stops_isSign_of_mem_words (isWord : word ∈ words) (spelled : InAnyCase word chars) :
    Stops isSign chars := by
  intro char isFirst
  have isAlpha := spelled.isAlpha (isLower_of_mem_words isWord) char (List.mem_of_mem_head? isFirst)
  refine Bool.eq_false_iff.mpr fun isSigned => ?_
  rcases Bool.or_eq_true_iff.mp isSigned with isMinus | isPlus
  · cases eq_of_beq isMinus
    cases isAlpha
  · cases eq_of_beq isPlus
    cases isAlpha

theorem Positional.not_inAnyCase
    {decimal : Decimal}
    (positional : Positional decimal chars)
    (isWord : word ∈ words) :
    ¬InAnyCase word chars := by
  intro spelled
  obtain ⟨first, others, rfl, isFirst⟩ := positional.exists_first
  have isAlpha := spelled.isAlpha (isLower_of_mem_words isWord) first List.mem_cons_self
  rcases isFirst with isDigit | rfl
  · have isLetter := inRange_of_isAlpha isAlpha
    have inDigits : 48 ≤ first.toNat ∧ first.toNat ≤ 57 := Char.isDigit_iff_toNat.mp isDigit
    omega
  · cases isAlpha

theorem Positional.stops_isSign {decimal : Decimal} (positional : Positional decimal chars) :
    Stops isSign chars := by
  obtain ⟨first, others, rfl, isFirst⟩ := positional.exists_first
  intro char isHead
  cases isHead
  rcases isFirst with isDigit | rfl
  · exact not_isSign_of_isDigit isDigit
  · rfl

/-- A literal is read if and only if it is spelled by the grammar. -/
theorem ofChars?_eq_some_iff {literal : Literal} :
    ofChars? chars = some literal ↔ Spells literal chars := by
  have inf : "inf".toList ∈ words := by decide
  have infinity : "infinity".toList ∈ words := by decide
  have nan : "nan".toList ∈ words := by decide
  constructor
  · intro isRead
    obtain ⟨negative, sign, rest, signed, rfl, isSplit⟩ := exists_signs chars
    simp only [ofChars?, isSplit, Bool.or_eq_true, decide_eq_true_eq] at isRead
    split at isRead
    next isWord =>
      cases isRead
      exact .infinite signed
        (isWord.imp (map_toLower_eq_iff (isLower_of_mem_words inf)).mp
          (map_toLower_eq_iff (isLower_of_mem_words infinity)).mp)
    next =>
      split at isRead
      next isWord =>
        cases isRead
        exact .nan signed ((map_toLower_eq_iff (isLower_of_mem_words nan)).mp isWord)
      next =>
        obtain ⟨decimal, isDecimal, rfl⟩ := Option.map_eq_some_iff.mp isRead
        exact .number signed (decimal?_eq_some_iff.mp isDecimal)
  · intro spelled
    cases spelled with
    | nan signed isWord =>
        have isSplit := signed.splitSign_append (stops_isSign_of_mem_words nan isWord)
        have lowered := (map_toLower_eq_iff (isLower_of_mem_words nan)).mpr isWord
        simp [ofChars?, isSplit, lowered]
    | infinite signed isWord =>
        rcases isWord with isWord | isWord
        · have isSplit := signed.splitSign_append (stops_isSign_of_mem_words inf isWord)
          have lowered := (map_toLower_eq_iff (isLower_of_mem_words inf)).mpr isWord
          simp [ofChars?, isSplit, lowered]
        · have isSplit := signed.splitSign_append (stops_isSign_of_mem_words infinity isWord)
          have lowered := (map_toLower_eq_iff (isLower_of_mem_words infinity)).mpr isWord
          simp [ofChars?, isSplit, lowered]
    | @number negative sign chars decimal signed positional =>
        have noWord : ∀ word ∈ words, chars.map Char.toLower ≠ word := by
          intro word isWord lowered
          exact positional.not_inAnyCase isWord
            ((map_toLower_eq_iff (isLower_of_mem_words isWord)).mp lowered)
        have isSplit := signed.splitSign_append positional.stops_isSign
        simp only [ofChars?, isSplit, noWord _ inf, noWord _ infinity, noWord _ nan, decide_false,
          Bool.or_self, Bool.false_eq_true, if_false, decimal?_eq_some_iff.mpr positional,
          Option.map_some]

end

/-! ## Blanks -/

/-- The characters are among those between the space and the last one of ASCII. -/
def AreVisible (chars : List Char) : Prop :=
  ∀ char ∈ chars, 33 ≤ char.toNat ∧ char.toNat ≤ 126

section

variable {chars word : List Char}

theorem AreVisible.solid (visible : AreVisible chars) :
    ∀ char ∈ chars, Text.isBlank char = false := by
  intro char member
  have inRange := visible char member
  simp only [Text.isBlank, Text.blankRanges, List.any_cons, List.any_nil, Bool.or_false,
    Bool.or_eq_false_iff, Bool.and_eq_false_iff, decide_eq_false_iff_not]
  omega

theorem AreVisible.append
    {behind : List Char}
    (front : AreVisible chars)
    (rest : AreVisible behind) :
    AreVisible (chars ++ behind) :=
  List.forall_mem_append.mpr ⟨front, rest⟩

theorem AreVisible.cons
    {char : Char}
    (first : 33 ≤ char.toNat ∧ char.toNat ≤ 126)
    (others : AreVisible chars) :
    AreVisible (char :: chars) :=
  List.forall_mem_cons.mpr ⟨first, others⟩

theorem areVisible_nil : AreVisible [] := nofun

theorem AreDigits.areVisible (areDigits : AreDigits chars) : AreVisible chars := by
  intro char member
  have inRange : 48 ≤ char.toNat ∧ char.toNat ≤ 57 :=
    Char.isDigit_iff_toNat.mp (areDigits char member)
  omega

theorem Signs.areVisible {negative : Bool} (signed : Signs negative chars) : AreVisible chars := by
  cases signed with
  | none => exact areVisible_nil
  | plus => exact areVisible_nil.cons (by decide)
  | minus => exact areVisible_nil.cons (by decide)

theorem InAnyCase.areVisible (spelled : InAnyCase word chars) (isWord : word ∈ words) :
    AreVisible chars := by
  intro char member
  have inRange := inRange_of_isAlpha (spelled.isAlpha (isLower_of_mem_words isWord) char member)
  omega

theorem Exponential.areVisible {power : Int} (exponential : Exponential power chars) :
    AreVisible chars := by
  cases exponential with
  | none => exact areVisible_nil
  | power isMark signed nonempty areDigits =>
      refine (signed.areVisible.append areDigits.areVisible).cons ?_
      rcases isMark with rfl | rfl <;> decide

theorem Fractional.areVisible {digits : List Char} (fractional : Fractional digits chars) :
    AreVisible chars := by
  cases fractional with
  | none => exact areVisible_nil
  | point areDigits => exact areDigits.areVisible.cons (by decide)

theorem Positional.areVisible {decimal : Decimal} (positional : Positional decimal chars) :
    AreVisible chars := by
  cases positional with
  | intro areDigits fractional nonempty exponential =>
      exact areDigits.areVisible.append (fractional.areVisible.append exponential.areVisible)

/-- There are no blanks in a literal. -/
theorem Spells.areVisible {literal : Literal} (spelled : Spells literal chars) :
    AreVisible chars := by
  cases spelled with
  | nan signed isWord =>
      exact signed.areVisible.append (isWord.areVisible (by decide))
  | infinite signed isWord =>
      rcases isWord with isWord | isWord
      · exact signed.areVisible.append (isWord.areVisible (by decide))
      · exact signed.areVisible.append (isWord.areVisible (by decide))
  | number signed positional => exact signed.areVisible.append positional.areVisible

theorem Spells.isTrimmed {literal : Literal} (spelled : Spells literal chars) :
    Text.IsTrimmed chars :=
  .of_solid spelled.areVisible.solid

end

end Literal
end Decimal
end CompositeIndex
