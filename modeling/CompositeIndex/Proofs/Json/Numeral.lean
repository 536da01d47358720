import CompositeIndex.Decimal.Literal
import CompositeIndex.Json.Value

/-!
# Numerals

A number of a JSON text is an optional minus sign, a whole part without a needless zero in front,
an optional fraction and an optional exponent. Counts and finite doubles are written as such
numerals, and the digits of a count read back to it.
-/

namespace CompositeIndex
namespace Json

open Decimal (Layout)
open Decimal.Literal (digitsValue splitDigits splitSign)

/-! ## The grammar -/

/-- There are digits, and nothing else. -/
def isDigits (chars : List Char) : Bool :=
  !chars.isEmpty && chars.all Char.isDigit

/-- The whole part of a numeral: a zero stands alone. -/
def isWholePart (chars : List Char) : Bool :=
  isDigits chars && (chars == ['0'] || chars.head? != some '0')

def isFraction : List Char → Bool
  | [] => true
  | point :: digits => point == '.' && isDigits digits

def isExponentMark (char : Char) : Bool :=
  char == 'e' || char == 'E'

def isExponent : List Char → Bool
  | [] => true
  | mark :: power => isExponentMark mark && isDigits (splitSign power).2

/-- A numeral without its sign. -/
def isUnsigned (chars : List Char) : Bool :=
  let (whole, behind) := splitDigits chars
  isWholePart whole &&
    isFraction (behind.takeWhile fun char => !isExponentMark char) &&
    isExponent (behind.dropWhile fun char => !isExponentMark char)

def isNumeral : List Char → Bool
  | [] => false
  | first :: rest => if first = '-' then isUnsigned rest else isUnsigned (first :: rest)

/-- The character may stand in a numeral. -/
def isNumeralChar (char : Char) : Bool :=
  char.isDigit || char == '-' || char == '+' || char == '.' || isExponentMark char

/-- The characters are a numeral without a sign, made of these parts. -/
inductive Unsigned : List Char → Prop
  | intro
      {whole fraction exponent : List Char}
      (isWhole : isWholePart whole = true)
      (fractional : isFraction fraction = true)
      (exponential : isExponent exponent = true) :
      Unsigned (whole ++ (fraction ++ exponent))

inductive Numeral : List Char → Prop
  | positive {chars : List Char} (unsigned : Unsigned chars) : Numeral chars
  | negative {chars : List Char} (unsigned : Unsigned chars) : Numeral ('-' :: chars)

/-! ## Splitting -/

/-- The predicate does not hold of what the characters start with. -/
def Stops (holds : Char → Bool) (rest : List Char) : Prop :=
  ∀ char ∈ rest.head?, holds char = false

section

variable {holds : Char → Bool} {front rest : List Char}

theorem takeWhile_append_of_stops
    (all : ∀ char ∈ front, holds char = true)
    (stops : Stops holds rest) :
    (front ++ rest).takeWhile holds = front := by
  rw [List.takeWhile_append_of_pos all]
  cases rest with
  | nil => simp
  | cons char rest => simp [stops char rfl]

theorem dropWhile_append_of_stops
    (all : ∀ char ∈ front, holds char = true)
    (stops : Stops holds rest) :
    (front ++ rest).dropWhile holds = rest := by
  rw [List.dropWhile_append_of_pos all]
  cases rest with
  | nil => rfl
  | cons char rest => exact List.dropWhile_cons_of_neg (by simp [stops char rfl])

end

theorem splitDigits_append
    {digits rest : List Char}
    (all : ∀ char ∈ digits, char.isDigit = true)
    (stops : Stops Char.isDigit rest) :
    splitDigits (digits ++ rest) = (digits, rest) := by
  rw [splitDigits, takeWhile_append_of_stops all stops, dropWhile_append_of_stops all stops]

/-! ## The parts of a numeral -/

theorem isDigits_iff {chars : List Char} :
    isDigits chars = true ↔ chars ≠ [] ∧ ∀ char ∈ chars, char.isDigit = true := by
  simp [isDigits]

theorem isExponentMark_iff {char : Char} :
    isExponentMark char = true ↔ char = 'e' ∨ char = 'E' := by
  simp [isExponentMark]

theorem isExponentMark_of_isDigit {char : Char} (isDigit : char.isDigit = true) :
    isExponentMark char = false := by
  refine Bool.eq_false_iff.mpr fun isMark => ?_
  rcases isExponentMark_iff.mp isMark with rfl | rfl <;> cases isDigit

theorem isDigit_of_isWholePart
    {whole : List Char}
    (isWhole : isWholePart whole = true) :
    whole ≠ [] ∧ ∀ char ∈ whole, char.isDigit = true :=
  isDigits_iff.mp (Bool.and_eq_true_iff.mp isWhole).1

theorem isFraction_cases
    {fraction : List Char}
    (fractional : isFraction fraction = true) :
    fraction = [] ∨ ∃ digits, fraction = '.' :: digits ∧ isDigits digits = true := by
  cases fraction with
  | nil => exact .inl rfl
  | cons point digits =>
      obtain ⟨isPoint, isDigits⟩ := Bool.and_eq_true_iff.mp fractional
      rw [eq_of_beq isPoint]
      exact .inr ⟨digits, rfl, isDigits⟩

theorem isExponent_cases
    {exponent : List Char}
    (exponential : isExponent exponent = true) :
    exponent = [] ∨ ∃ mark sign digits, exponent = mark :: (sign ++ digits) ∧
      isExponentMark mark = true ∧ (sign = [] ∨ sign = ['+'] ∨ sign = ['-']) ∧
      isDigits digits = true := by
  cases exponent with
  | nil => exact .inl rfl
  | cons mark power =>
      obtain ⟨isMark, isDigits⟩ := Bool.and_eq_true_iff.mp exponential
      refine .inr ?_
      unfold splitSign at isDigits
      split at isDigits
      · exact ⟨mark, ['-'], _, rfl, isMark, .inr (.inr rfl), isDigits⟩
      · exact ⟨mark, ['+'], _, rfl, isMark, .inr (.inl rfl), isDigits⟩
      · exact ⟨mark, [], _, rfl, isMark, .inl rfl, isDigits⟩

/-! ## Recognizing numerals -/

section

variable {whole fraction exponent : List Char}

/-- An exponent starts with its mark. -/
theorem stops_exponent
    {holds : Char → Bool}
    (lower : holds 'e' = false)
    (upper : holds 'E' = false)
    (exponential : isExponent exponent = true) :
    Stops holds exponent := by
  rcases isExponent_cases exponential with rfl | ⟨mark, sign, digits, rfl, isMark, _⟩
  · exact nofun
  · intro char isHead
    cases isHead
    rcases isExponentMark_iff.mp isMark with rfl | rfl
    · exact lower
    · exact upper

theorem stops_isDigit_fraction
    (fractional : isFraction fraction = true)
    (exponential : isExponent exponent = true) :
    Stops Char.isDigit (fraction ++ exponent) := by
  rcases isFraction_cases fractional with rfl | ⟨digits, rfl, _⟩
  · exact stops_exponent rfl rfl exponential
  · intro char isHead
    cases isHead
    rfl

theorem not_isExponentMark_of_mem_fraction (fractional : isFraction fraction = true) :
    ∀ char ∈ fraction, (!isExponentMark char) = true := by
  rcases isFraction_cases fractional with rfl | ⟨digits, rfl, areDigits⟩
  · exact nofun
  · refine List.forall_mem_cons.mpr ⟨rfl, fun char member => ?_⟩
    rw [isExponentMark_of_isDigit ((isDigits_iff.mp areDigits).2 char member)]
    rfl

theorem Unsigned.isUnsigned_eq {chars : List Char} (unsigned : Unsigned chars) :
    isUnsigned chars = true := by
  obtain ⟨isWhole, fractional, exponential⟩ := unsigned
  have digits := (isDigit_of_isWholePart isWhole).2
  have notMarks := not_isExponentMark_of_mem_fraction fractional
  have stops : Stops (fun char => !isExponentMark char) _ := stops_exponent rfl rfl exponential
  rw [isUnsigned, splitDigits_append digits (stops_isDigit_fraction fractional exponential)]
  dsimp only
  rw [takeWhile_append_of_stops notMarks stops, dropWhile_append_of_stops notMarks stops, isWhole,
    fractional, exponential]
  rfl

theorem Unsigned.exists_digit {chars : List Char} (unsigned : Unsigned chars) :
    ∃ first rest, chars = first :: rest ∧ first.isDigit = true := by
  obtain ⟨isWhole, _, _⟩ := unsigned
  obtain ⟨notEmpty, digits⟩ := isDigit_of_isWholePart isWhole
  obtain ⟨first, others, rfl⟩ := List.exists_cons_of_ne_nil notEmpty
  exact ⟨first, _, rfl, digits first List.mem_cons_self⟩

theorem unsigned_of_isUnsigned {chars : List Char} (accepted : isUnsigned chars = true) :
    Unsigned chars := by
  obtain ⟨accepted, exponential⟩ := Bool.and_eq_true_iff.mp accepted
  obtain ⟨isWhole, fractional⟩ := Bool.and_eq_true_iff.mp accepted
  have unsigned := Unsigned.intro isWhole fractional exponential
  rwa [List.takeWhile_append_dropWhile, List.takeWhile_append_dropWhile] at unsigned

/-- The check accepts the numerals and nothing else. -/
theorem isNumeral_iff {chars : List Char} : isNumeral chars = true ↔ Numeral chars := by
  constructor
  · intro accepted
    cases chars with
    | nil => cases accepted
    | cons first rest =>
        rw [isNumeral] at accepted
        split at accepted
        next isMinus =>
          rw [isMinus]
          exact .negative (unsigned_of_isUnsigned accepted)
        next => exact .positive (unsigned_of_isUnsigned accepted)
  · intro numeral
    cases numeral with
    | negative unsigned => exact unsigned.isUnsigned_eq
    | positive unsigned =>
        obtain ⟨first, rest, rfl, isDigit⟩ := unsigned.exists_digit
        have notMinus : first ≠ '-' := by
          rintro rfl
          cases isDigit
        rw [isNumeral, if_neg notMinus]
        exact unsigned.isUnsigned_eq

example : isNumeral "-0.5e+10".toList = true := by decide
example : isNumeral "01".toList = false := by decide

theorem isNumeralChar_of_isDigit {char : Char} (isDigit : char.isDigit = true) :
    isNumeralChar char = true := by
  simp [isNumeralChar, isDigit]

theorem isNumeralChar_of_mem_fraction (fractional : isFraction fraction = true) :
    ∀ char ∈ fraction, isNumeralChar char = true := by
  rcases isFraction_cases fractional with rfl | ⟨digits, rfl, areDigits⟩
  · exact nofun
  · exact List.forall_mem_cons.mpr
      ⟨rfl, fun char member => isNumeralChar_of_isDigit ((isDigits_iff.mp areDigits).2 char member)⟩

theorem isNumeralChar_of_mem_exponent (exponential : isExponent exponent = true) :
    ∀ char ∈ exponent, isNumeralChar char = true := by
  rcases isExponent_cases exponential with
    rfl | ⟨mark, sign, digits, rfl, isMark, isSign, areDigits⟩
  · exact nofun
  · refine List.forall_mem_cons.mpr ⟨by simp [isNumeralChar, isMark], fun char member => ?_⟩
    rcases List.mem_append.mp member with inSign | inDigits
    · rcases isSign with rfl | rfl | rfl
      · cases inSign
      · cases List.mem_singleton.mp inSign
        rfl
      · cases List.mem_singleton.mp inSign
        rfl
    · exact isNumeralChar_of_isDigit ((isDigits_iff.mp areDigits).2 char inDigits)

theorem Unsigned.isNumeralChar {chars : List Char} (unsigned : Unsigned chars) :
    ∀ char ∈ chars, isNumeralChar char = true := by
  obtain ⟨isWhole, fractional, exponential⟩ := unsigned
  refine List.forall_mem_append.mpr ⟨fun char member => ?_, List.forall_mem_append.mpr
    ⟨isNumeralChar_of_mem_fraction fractional, isNumeralChar_of_mem_exponent exponential⟩⟩
  exact isNumeralChar_of_isDigit ((isDigit_of_isWholePart isWhole).2 char member)

theorem Numeral.isNumeralChar {chars : List Char} (numeral : Numeral chars) :
    ∀ char ∈ chars, isNumeralChar char = true := by
  cases numeral with
  | positive unsigned => exact unsigned.isNumeralChar
  | negative unsigned => exact List.forall_mem_cons.mpr ⟨rfl, unsigned.isNumeralChar⟩

end

/-! ## Counts -/

theorem isDigit_of_mem_toDigits {number : Nat} :
    ∀ char ∈ Nat.toDigits 10 number, char.isDigit = true :=
  fun _ member => Nat.isDigit_of_mem_toDigits (by decide) (by decide) member

/-- The digits of a number start with a zero only if the number is zero. -/
theorem head?_toDigits_ne_zero {number : Nat} (positive : 0 < number) :
    (Nat.toDigits 10 number).head? ≠ some '0' := by
  induction number using Nat.strongRecOn with
  | ind number inductionHypothesis =>
      rcases Nat.lt_or_ge number 10 with small | large
      · rw [Nat.toDigits_of_lt_base small]
        have digits : ∀ digit < 10, 0 < digit → [digit.digitChar].head? ≠ some '0' := by decide
        exact digits number small positive
      · rw [Nat.toDigits_of_base_le (by decide) large,
          List.head?_append, Option.or_of_isSome (List.isSome_head?.mpr Nat.toDigits_ne_nil)]
        exact inductionHypothesis (number / 10) (by omega) (by omega)

theorem isWholePart_toDigits (number : Nat) : isWholePart (Nat.toDigits 10 number) = true := by
  refine Bool.and_eq_true_iff.mpr
    ⟨isDigits_iff.mpr ⟨Nat.toDigits_ne_nil, isDigit_of_mem_toDigits⟩, ?_⟩
  rcases Nat.eq_zero_or_pos number with rfl | positive
  · rfl
  · simp [head?_toDigits_ne_zero positive]

theorem toList_digits (number : Nat) : (Text.digits number).toList = Nat.toDigits 10 number :=
  String.toList_ofList

theorem numeral_digits (number : Nat) : Numeral (Text.digits number).toList := by
  have unsigned : Unsigned (Nat.toDigits 10 number ++ ([] ++ [])) :=
    .intro (isWholePart_toDigits number) rfl rfl
  rw [toList_digits]
  exact .positive (by simpa using unsigned)

theorem digitsValue_toDigits (number : Nat) : digitsValue 0 (Nat.toDigits 10 number) = number := by
  have value := @Nat.ofDigitChars_ten_toDigits number
  rwa [Nat.ofDigitChars_eq_foldl] at value

/-! ## Measured values -/

/-- The digits do not start with a zero. -/
structure AreSignificant (digits : List Char) : Prop where
  leading : digits.head? ≠ some '0'
  areDigits : isDigits digits = true

theorem areSignificant_toDigits {number : Nat} (positive : 0 < number) :
    AreSignificant (Nat.toDigits 10 number) :=
  ⟨head?_toDigits_ne_zero positive,
    isDigits_iff.mpr ⟨Nat.toDigits_ne_nil, isDigit_of_mem_toDigits⟩⟩

section

variable {digits : List Char}

theorem AreSignificant.ne_nil (significant : AreSignificant digits) : digits ≠ [] :=
  (isDigits_iff.mp significant.areDigits).1

theorem AreSignificant.isDigit (significant : AreSignificant digits) :
    ∀ char ∈ digits, char.isDigit = true :=
  (isDigits_iff.mp significant.areDigits).2

/-- Digits that start like significant ones are a whole part. -/
theorem AreSignificant.isWholePart
    (significant : AreSignificant digits)
    {whole : List Char}
    (sameHead : whole.head? = digits.head?)
    (areDigits : ∀ char ∈ whole, char.isDigit = true) :
    isWholePart whole = true := by
  have notEmpty : whole ≠ [] := by
    rintro rfl
    exact significant.ne_nil (List.head?_eq_none_iff.mp sameHead.symm)
  refine Bool.and_eq_true_iff.mpr ⟨isDigits_iff.mpr ⟨notEmpty, areDigits⟩, ?_⟩
  simp [sameHead, significant.leading]

theorem isDigit_of_mem_zeros {count : Nat} :
    ∀ char ∈ List.replicate count '0', char.isDigit = true := by
  intro char member
  rw [List.eq_of_mem_replicate member]
  rfl

theorem AreSignificant.isWholePart_append_zeros
    (significant : AreSignificant digits)
    (count : Nat) :
    Json.isWholePart (digits ++ List.replicate count '0') = true := by
  refine significant.isWholePart ?_
    (List.forall_mem_append.mpr ⟨significant.isDigit, isDigit_of_mem_zeros⟩)
  rw [List.head?_append, Option.or_of_isSome (List.isSome_head?.mpr significant.ne_nil)]

theorem AreSignificant.isWholePart_take
    (significant : AreSignificant digits)
    {count : Nat}
    (some : 0 < count) :
    Json.isWholePart (digits.take count) = true := by
  refine significant.isWholePart ?_
    fun char member => significant.isDigit char (List.mem_of_mem_take member)
  rw [List.head?_take, if_neg (Nat.ne_of_gt some)]

theorem isFraction_cons_point
    (notEmpty : digits ≠ [])
    (all : ∀ char ∈ digits, char.isDigit = true) :
    isFraction ('.' :: digits) = true := by
  rw [isFraction, isDigits_iff.mpr ⟨notEmpty, all⟩]
  rfl

/-- A sign in front of digits is split off. -/
theorem splitSign_append
    {sign : List Char}
    (signed : sign = [] ∨ sign = ['+'] ∨ sign = ['-'])
    (areDigits : isDigits digits = true) :
    ∃ negative, ∀ rest, splitSign (sign ++ (digits ++ rest)) = (negative, digits ++ rest) := by
  rcases signed with rfl | rfl | rfl
  · obtain ⟨notEmpty, all⟩ := isDigits_iff.mp areDigits
    obtain ⟨first, others, rfl⟩ := List.exists_cons_of_ne_nil notEmpty
    have isDigit := all first List.mem_cons_self
    refine ⟨false, fun rest => ?_⟩
    rw [List.nil_append, List.cons_append]
    unfold splitSign
    split
    next same =>
      cases same
      cases isDigit
    next same =>
      cases same
      cases isDigit
    next => rfl
  · exact ⟨false, fun rest => rfl⟩
  · exact ⟨true, fun rest => rfl⟩

theorem isExponent_cons_mark
    {sign : List Char}
    (signed : sign = [] ∨ sign = ['+'] ∨ sign = ['-'])
    (areDigits : isDigits digits = true) :
    isExponent ('e' :: (sign ++ digits)) = true := by
  obtain ⟨negative, split⟩ := splitSign_append signed areDigits
  have behindSign := split []
  rw [List.append_nil] at behindSign
  rw [isExponent, behindSign, areDigits]
  rfl

end

/-- What the layout adds to the digits belongs to numerals. -/
structure IsNumeric (layout : Layout) : Prop where
  integralEnd : isFraction layout.integralEnd.toList = true
  exponentPlus : layout.exponentPlus.toList = [] ∨ layout.exponentPlus.toList = ['+']

theorem isNumeric_measureLayout : IsNumeric measureLayout :=
  ⟨by decide, .inr (by decide)⟩

section

variable {layout : Layout} {digits : List Char}

theorem unsigned_positional
    (numeric : IsNumeric layout)
    (significant : AreSignificant digits)
    (point : Int) :
    Unsigned (layout.positional digits point).toList := by
  unfold Layout.positional
  -- the point stands in front of all digits, behind them or among them
  split
  next =>
    have fractional : isFraction ('.' :: (List.replicate point.natAbs '0' ++ digits)) = true :=
      isFraction_cons_point (by simp [significant.ne_nil])
        (List.forall_mem_append.mpr ⟨isDigit_of_mem_zeros, significant.isDigit⟩)
    have unsigned : Unsigned (['0'] ++
        ('.' :: (List.replicate point.natAbs '0' ++ digits) ++ [])) :=
      .intro rfl fractional rfl
    simpa using unsigned
  next positive =>
    split
    next =>
      have isWhole := significant.isWholePart_append_zeros (point.toNat - digits.length)
      have unsigned : Unsigned (digits ++ List.replicate (point.toNat - digits.length) '0' ++
          (layout.integralEnd.toList ++ [])) :=
        .intro isWhole numeric.integralEnd rfl
      simpa using unsigned
    next inside =>
      have isWhole := significant.isWholePart_take (by omega : 0 < point.toNat)
      have fractional : isFraction ('.' :: digits.drop point.toNat) = true :=
        isFraction_cons_point (by simp; omega)
          fun char member => significant.isDigit char (List.mem_of_mem_drop member)
      have unsigned : Unsigned (digits.take point.toNat ++
          ('.' :: digits.drop point.toNat ++ [])) :=
        .intro isWhole fractional rfl
      simpa using unsigned

theorem exists_sign_of_exponent (numeric : IsNumeric layout) (power : Int) :
    ∃ sign, (sign = [] ∨ sign = ['+'] ∨ sign = ['-']) ∧
      ((if power < 0 then "" else layout.exponentPlus) ++ Text.signedDigits power).toList =
        sign ++ Nat.toDigits 10 power.natAbs := by
  unfold Text.signedDigits
  by_cases negative : power < 0
  · refine ⟨['-'], .inr (.inr rfl), ?_⟩
    simp [negative, toList_digits]
  · refine ⟨layout.exponentPlus.toList, ?_, ?_⟩
    · rcases numeric.exponentPlus with none | plus
      · exact .inl none
      · exact .inr (.inl plus)
    · simp [negative, toList_digits]

theorem unsigned_scientific
    (numeric : IsNumeric layout)
    (significant : AreSignificant digits)
    (point : Int) :
    Unsigned (layout.scientific digits point).toList := by
  have isWhole := significant.isWholePart_take Nat.one_pos
  obtain ⟨sign, signed, written⟩ := exists_sign_of_exponent numeric (point - 1)
  have exponential : isExponent ('e' :: (sign ++ Nat.toDigits 10 (point - 1).natAbs)) = true :=
    isExponent_cons_mark signed (isDigits_iff.mpr ⟨Nat.toDigits_ne_nil, isDigit_of_mem_toDigits⟩)
  have text : (layout.scientific digits point).toList =
      digits.take 1 ++ ((if (digits.drop 1).isEmpty then [] else '.' :: digits.drop 1) ++
        'e' :: (sign ++ Nat.toDigits 10 (point - 1).natAbs)) := by
    rw [← written]
    unfold Layout.scientific
    dsimp only
    cases digits.drop 1 <;> simp
  rw [text]
  refine .intro isWhole ?_ exponential
  split
  · rfl
  next isRest =>
    exact isFraction_cons_point (fun none => isRest (List.isEmpty_iff.mpr none))
      fun char member => significant.isDigit char (List.mem_of_mem_drop member)

/-- A decimal is written as a numeral. -/
theorem unsigned_writeDecimal (numeric : IsNumeric layout) (decimal : Decimal) :
    Unsigned (layout.writeDecimal decimal).toList := by
  unfold Layout.writeDecimal
  split
  next =>
    have unsigned : Unsigned (['0'] ++ (layout.integralEnd.toList ++ [])) :=
      .intro rfl numeric.integralEnd rfl
    simpa using unsigned
  next notZero =>
    have significant := areSignificant_toDigits (Nat.pos_of_ne_zero notZero)
    dsimp only
    split
    · exact unsigned_positional numeric significant _
    · exact unsigned_scientific numeric significant _

/-- A finite double is written as a numeral. -/
theorem numeral_write
    (numeric : IsNumeric layout)
    {value : Float}
    {significand : Nat}
    {exponent : Int}
    (isFinite : Decimal.magnitude value = .finite significand exponent) :
    Numeral (layout.write value).toList := by
  have unsigned := unsigned_writeDecimal numeric
    (Decimal.shortest layout.tie (value.toBits.toNat % Nat.pow 2 63) significand exponent)
  unfold Layout.write
  rw [isFinite]
  dsimp only
  split
  · simpa using Numeral.negative unsigned
  · simpa using Numeral.positive unsigned

end

end Json
end CompositeIndex
