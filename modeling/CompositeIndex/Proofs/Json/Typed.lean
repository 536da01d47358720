import Mathlib.Data.List.DropRight
import CompositeIndex.Proofs.Json.Fields

/-!
# Reading values of one type

The readers of single types read back what is written of their types, whatever follows that cannot
be a part of a number. And wherever they read a value that the reader of all values reads too, they
stop where it stops, although they read numbers in their own way.
-/

namespace CompositeIndex
namespace Json

section

variable {rest : List Char}

theorem stops_nil {holds : Char → Bool} : Stops holds [] := nofun

theorem Stops.mono
    {holds other : Char → Bool}
    (stops : Stops other rest)
    (implies : ∀ char, holds char = true → other char = true) :
    Stops holds rest := by
  intro char isFirst
  refine Bool.eq_false_iff.mpr fun isHeld => ?_
  have alsoHeld := implies char isHeld
  rw [stops char isFirst] at alsoHeld
  cases alsoHeld

theorem Stops.isDigit (stops : Stops isNumeralChar rest) : Stops Char.isDigit rest :=
  stops.mono fun _ => isNumeralChar_of_isDigit

theorem Stops.append
    {holds : Char → Bool} {chars : List Char}
    (inFront : Stops holds chars)
    (stops : Stops holds rest) :
    Stops holds (chars ++ rest) := by
  cases chars with
  | nil => exact stops
  | cons first others => exact inFront

theorem Stops.ne_cons
    {holds : Char → Bool} {char : Char}
    (stops : Stops holds rest)
    (isHeld : holds char = true)
    (others : List Char) :
    rest ≠ char :: others := by
  rintro rfl
  rw [stops char rfl] at isHeld
  cases isHeld

end

namespace Decoder

open Decimal.Literal (digitsValue splitDigits splitSign)

theorem skipGap_skipGap (chars : List Char) : skipGap (skipGap chars) = skipGap chars :=
  List.dropWhile_idempotent isGap chars

theorem exists_of_map_eq_ok
    {result : Except Fault α} {convert : α → β} {answer : β}
    (isMapped : result.map convert = .ok answer) :
    ∃ found, result = .ok found ∧ convert found = answer := by
  cases result with
  | error fault => cases isMapped
  | ok found => exact ⟨found, rfl, Except.ok.inj isMapped⟩

theorem exists_of_bind_eq_ok
    {result : Except ε α} {andThen : α → Except ε β} {answer : β}
    (isBound : (result >>= andThen) = .ok answer) :
    ∃ found, result = .ok found ∧ andThen found = .ok answer := by
  cases result with
  | error fault => cases isBound
  | ok found => exact ⟨found, rfl, isBound⟩

theorem whole_eq_ok_iff {decoder : Decoder α} {chars : List Char} {answer : α} :
    whole decoder chars = .ok answer ↔
      ∃ rest, decoder chars = .ok (answer, rest) ∧ skipGap rest = [] := by
  unfold whole
  split
  next fault refused => simp [refused]
  next found rest isRead =>
    split
    next isEnd => simp [isRead, isEnd]
    next notEnd => simpa [isRead] using fun _ => notEnd

/-! ## Numbers -/

/-- The decoder reads these characters to their end, or refuses them, whatever follows that
cannot be a part of a number. -/
inductive Settles (decoder : Decoder α) (chars : List Char) : Prop
  | reads
      {answer : α}
      (reads : Reads decoder chars answer) :
      Settles decoder chars
  | refuses
      (refuses : ∀ rest, Stops isNumeralChar rest →
        ∃ fault, decoder (chars ++ rest) = .error fault) :
      Settles decoder chars

theorem Settles.congr
    {decoder other : Decoder α} {chars others : List Char}
    (settles : Settles other others)
    (same : ∀ rest, Stops isNumeralChar rest → decoder (chars ++ rest) = other (others ++ rest)) :
    Settles decoder chars := by
  cases settles with
  | @reads answer reads =>
      have alsoReads : Reads decoder chars answer := by
        intro rest stops
        rw [same rest stops]
        exact reads rest stops
      exact .reads alsoReads
  | refuses refuses =>
      refine .refuses fun rest stops => ?_
      rw [same rest stops]
      exact refuses rest stops

section

variable {negative : Bool} {sign digits whole fraction exponent : List Char}

theorem settles_inRange (number : Number) : Settles (inRange number) [] := by
  unfold inRange
  by_cases finite : number.toFloat.isFinite = true
  · exact .reads fun rest _ => if_pos finite
  · exact .refuses fun rest _ => ⟨_, if_neg finite⟩

theorem settles_exponent
    (isZero : Bool)
    (signed : sign = [] ∨ sign = ['+'] ∨ sign = ['-'])
    (areDigits : isDigits digits = true) :
    Settles (Decoder.exponent isZero) (sign ++ digits) := by
  obtain ⟨notEmpty, all⟩ := isDigits_iff.mp areDigits
  obtain ⟨negative, split⟩ := splitSign_append signed areDigits
  cases negative with
  | true =>
      have reads : Reads (Decoder.exponent isZero) (sign ++ digits) (-(digitsValue 0 digits)) := by
        intro rest stops
        simp [Decoder.exponent, split, splitDigits_append all stops.isDigit, notEmpty]
      exact .reads reads
  | false =>
      cases excess : behindExcess? 0 digits with
      | none =>
          have reads : Reads (Decoder.exponent isZero) (sign ++ digits) (digitsValue 0 digits) := by
            intro rest stops
            simp [Decoder.exponent, split, splitDigits_append all stops.isDigit, notEmpty, excess]
          exact .reads reads
      | some left =>
          cases isZero with
          | true =>
              have reads :
                  Reads (Decoder.exponent true) (sign ++ digits) (digitsValue 0 digits) := by
                intro rest stops
                simp [Decoder.exponent, split, splitDigits_append all stops.isDigit, notEmpty,
                  excess]
              exact .reads reads
          | false =>
              refine .refuses fun rest stops => ⟨.before .numberOutOfRange (left ++ rest), ?_⟩
              simp [Decoder.exponent, split, splitDigits_append all stops.isDigit, notEmpty, excess]

theorem settles_optionalExponent
    (negative isIntegral : Bool)
    (size : Decimal)
    (exponential : isExponent exponent = true) :
    Settles (optionalExponent negative isIntegral size) exponent := by
  rcases isExponent_cases exponential with
    rfl | ⟨mark, sign, digits, rfl, isMark, signed, areDigits⟩
  · refine (settles_inRange ⟨negative, isIntegral, size⟩).congr fun rest stops => ?_
    cases rest with
    | nil => rfl
    | cons first others =>
        have notNumeral := stops first rfl
        simp only [isNumeralChar, isExponentMark, Bool.or_eq_false_iff, beq_eq_false_iff_ne]
          at notNumeral
        simp [optionalExponent, notNumeral.2.1, notNumeral.2.2]
  · have marked : (mark = 'e' || mark = 'E') = true := by
      simpa using isExponentMark_iff.mp isMark
    cases settles_exponent (size.digits == 0) signed areDigits with
    | @reads power reads =>
        refine (settles_inRange ⟨negative, false, ⟨size.digits, size.exponent + power⟩⟩).congr
          fun rest stops => ?_
        rw [List.cons_append, optionalExponent, if_pos marked, reads rest stops]
        rfl
    | refuses refuses =>
        refine .refuses fun rest stops => ?_
        obtain ⟨fault, refused⟩ := refuses rest stops
        refine ⟨fault, ?_⟩
        rw [List.cons_append, optionalExponent, if_pos marked, refused]

theorem afterWhole_of_noPoint
    {chars : List Char}
    (noPoint : ∀ others, chars ≠ '.' :: others)
    (value : Nat) :
    afterWhole negative value chars = optionalExponent negative true ⟨value, 0⟩ chars := by
  unfold afterWhole
  split
  next others => exact absurd rfl (noPoint others)
  next => rfl

theorem settles_afterWhole
    (negative : Bool)
    (value : Nat)
    (fractional : isFraction fraction = true)
    (exponential : isExponent exponent = true) :
    Settles (afterWhole negative value) (fraction ++ exponent) := by
  rcases isFraction_cases fractional with rfl | ⟨digits, rfl, areDigits⟩
  · refine (settles_optionalExponent negative true ⟨value, 0⟩ exponential).congr
      fun rest stops => afterWhole_of_noPoint ?_ value
    have stopsAtPoint : Stops (· == '.') (exponent ++ rest) :=
      (stops_exponent rfl rfl exponential).append
        (stops.mono fun char isPoint => by simp [isNumeralChar, isPoint])
    exact stopsAtPoint.ne_cons rfl
  · obtain ⟨notEmpty, all⟩ := isDigits_iff.mp areDigits
    refine (settles_optionalExponent negative false
      ⟨digitsValue value digits, -(digits.length : Int)⟩ exponential).congr fun rest stops => ?_
    have split := splitDigits_append all
      ((stops_exponent rfl rfl exponential).append stops.isDigit)
    simp [afterWhole, split, notEmpty]

theorem unsigned_append
    (isWhole : isWholePart whole = true)
    {rest : List Char}
    (stops : Stops Char.isDigit rest) :
    unsigned negative (whole ++ rest) = afterWhole negative (digitsValue 0 whole) rest := by
  obtain ⟨notEmpty, all⟩ := isDigit_of_isWholePart isWhole
  by_cases isZero : whole = ['0']
  · subst isZero
    cases rest with
    | nil => rfl
    | cons second others =>
        simp [unsigned, stops second rfl, digitsValue, Decimal.Literal.digitValue]
  · have split := splitDigits_append all stops
    obtain ⟨first, others, rfl⟩ := List.exists_cons_of_ne_nil notEmpty
    have notZero : first ≠ '0' := by
      rintro rfl
      rcases Bool.or_eq_true_iff.mp (Bool.and_eq_true_iff.mp isWhole).2 with alone | other
      · exact isZero (eq_of_beq alone)
      · cases other
    rw [List.cons_append] at split ⊢
    simp [unsigned, notZero, all first List.mem_cons_self, split]

theorem settles_unsigned
    (negative : Bool)
    {chars : List Char}
    (isUnsigned : Unsigned chars) :
    Settles (unsigned negative) chars := by
  cases isUnsigned with
  | @intro whole fraction exponent isWhole fractional exponential =>
      refine (settles_afterWhole negative (digitsValue 0 whole) fractional exponential).congr
        fun rest stops => ?_
      rw [List.append_assoc]
      exact unsigned_append isWhole
        ((stops_isDigit_fraction fractional exponential).append stops.isDigit)

end

theorem Settles.map
    {decoder : Decoder α} {chars : List Char}
    (settles : Settles decoder chars)
    (convert : α → β) :
    Settles (fun chars => (decoder chars).map fun (found, rest) => (convert found, rest))
      chars := by
  cases settles with
  | @reads answer reads =>
      have converts : Reads (fun chars => (decoder chars).map fun (found, rest) =>
          (convert found, rest)) chars (convert answer) := by
        intro rest stops
        simp [reads rest stops, Except.map]
      exact .reads converts
  | refuses refuses =>
      refine .refuses fun rest stops => ?_
      obtain ⟨fault, refused⟩ := refuses rest stops
      exact ⟨fault, by simp [refused, Except.map]⟩

/-- What is read where the text ends is read wherever a number ends. -/
theorem Settles.reads_of_whole
    {decoder : Decoder α} {chars : List Char} {answer : α}
    (settles : Settles decoder chars)
    (isRead : whole decoder chars = .ok answer) :
    Reads decoder chars answer := by
  cases settles with
  | @reads found reads =>
      have atEnd := reads [] stops_nil
      rw [List.append_nil] at atEnd
      have same : found = answer := by simpa [whole, atEnd, skipGap] using isRead
      rwa [← same]
  | refuses refuses =>
      obtain ⟨fault, refused⟩ := refuses [] stops_nil
      rw [List.append_nil] at refused
      simp [whole, refused] at isRead

theorem float_minus (chars : List Char) :
    float ('-' :: chars) = (unsigned true chars).map fun (found, rest) => (found.toFloat, rest) :=
  rfl

theorem float_of_isDigit
    {first : Char}
    (isDigit : first.isDigit = true)
    (chars : List Char) :
    float (first :: chars) =
      (unsigned false (first :: chars)).map fun (found, rest) => (found.toFloat, rest) := by
  have begins : BeginsNumeral first := .inr isDigit
  rw [float, skipGap_cons begins.not_isGap]
  split
  next same => cases same
  next same =>
    cases same
    cases isDigit
  next same =>
    cases same
    rw [if_pos isDigit]

theorem float_skipGap (chars : List Char) : float (skipGap chars) = float chars := by
  simp only [float, skipGap_skipGap]

theorem settles_float {literal : List Char} (isLiteral : Numeral literal) :
    Settles float literal := by
  cases isLiteral with
  | negative isUnsigned =>
      exact ((settles_unsigned true isUnsigned).map Number.toFloat).congr fun rest _ =>
        float_minus _
  | positive isUnsigned =>
      obtain ⟨first, others, rfl, isDigit⟩ := isUnsigned.exists_digit
      exact ((settles_unsigned false isUnsigned).map Number.toFloat).congr fun rest _ =>
        float_of_isDigit isDigit _

/-! ## What is written is read back -/

theorem reads_float {value : Float} (readsBack : ReadsBack value) :
    Reads float (measureLayout.write value).toList value :=
  (settles_float readsBack.numeral).reads_of_whole readsBack

theorem reads_quote (value : String) : Reads text (quote value.toList) value := by
  intro rest _
  simp [text, quote, skipGap_cons (show isGap '"' = false from rfl), quoted_append, Except.map]

section

variable {decoder : Decoder α} {write : α → Json} {depth : Nat}

theorem optional_of_not_null
    (ignoresGap : ∀ chars, decoder (skipGap chars) = decoder chars)
    {chars : List Char}
    (notNull : ∀ more, skipGap chars ≠ 'n' :: more) :
    optional decoder chars = (decoder chars).map fun (result, rest) => (some result, rest) := by
  unfold optional
  split
  next more start => exact absurd start (notNull more)
  next => rw [ignoresGap]

theorem reads_optional_null : Reads (optional decoder) (renderChars .null) none := by
  intro rest _
  rfl

theorem reads_optional
    {first : Char} {others : List Char} {answer : α}
    (ignoresGap : ∀ chars, decoder (skipGap chars) = decoder chars)
    (notGap : isGap first = false)
    (notNull : first ≠ 'n')
    (reads : Reads decoder (first :: others) answer) :
    Reads (optional decoder) (first :: others) (some answer) := by
  intro rest stops
  have start := skipGap_cons notGap (others ++ rest)
  rw [optional_of_not_null ignoresGap, reads rest stops]
  · rfl
  · intro more isNull
    rw [List.cons_append, start] at isNull
    exact notNull (List.cons.inj isNull).1

theorem reads_items
    (write : α → Json)
    {values : List α}
    (readable : ∀ value ∈ values, Readable depth (write value))
    (reads : ∀ value ∈ values, Reads decoder (write value).renderChars value) :
    Reads (array decoder) (renderChars (.array (values.map write))) values := by
  intro rest _
  have readItems := items_of_reads write readable reads rest
  simpa [renderChars, array, skipGap_cons (show isGap '[' = false from rfl)] using readItems

theorem reads_members
    (write : α → Json)
    {values : List (String × α)}
    (reads : ∀ value ∈ values, Reads decoder (write value.2).renderChars value.2) :
    Reads (dictionary decoder)
      (renderChars (.object (values.map fun value => (value.1, write value.2)))) values := by
  intro rest _
  have readMembers := members_of_reads write reads rest
  simpa [renderChars, dictionary, skipGap_cons (show isGap '{' = false from rfl)] using readMembers

end

/-! ## Where a value ends -/

/-- The reader of all values reads a value that starts right here. -/
inductive ReadsHere : (depth : Nat) → List Char → Json → List Char → Prop
  | null
      {depth : Nat} {chars rest : List Char}
      (isWord : word ['u', 'l', 'l'] chars = .ok rest) :
      ReadsHere depth ('n' :: chars) .null rest
  | true
      {depth : Nat} {chars rest : List Char}
      (isWord : word ['r', 'u', 'e'] chars = .ok rest) :
      ReadsHere depth ('t' :: chars) (.boolean Bool.true) rest
  | false
      {depth : Nat} {chars rest : List Char}
      (isWord : word ['a', 'l', 's', 'e'] chars = .ok rest) :
      ReadsHere depth ('f' :: chars) (.boolean Bool.false) rest
  | text
      {depth : Nat} {chars meant rest : List Char}
      (isQuoted : quoted chars = .ok (meant, rest)) :
      ReadsHere depth ('"' :: chars) (.text (String.ofList meant)) rest
  | number
      {depth : Nat} {chars literal rest : List Char}
      (split : chars = literal ++ rest)
      (isLiteral : Numeral literal)
      (stops : Stops isNumeralChar rest) :
      ReadsHere depth chars (.number (String.ofList literal)) rest
  | array
      {depth : Nat} {chars rest : List Char} {found : List Json}
      (areItems : items (value depth) chars Bool.true chars = .ok (found, rest)) :
      ReadsHere (depth + 1) ('[' :: chars) (.array found) rest
  | object
      {depth : Nat} {chars rest : List Char} {found : List (String × Json)}
      (areMembers : members (value depth) chars Bool.true chars = .ok (found, rest)) :
      ReadsHere (depth + 1) ('{' :: chars) (.object found) rest

theorem readsHere_of_numeral
    {depth : Nat} {chars rest : List Char} {json : Json}
    (isRead : numeral chars = .ok (json, rest)) :
    ReadsHere depth chars json rest := by
  unfold numeral at isRead
  split at isRead
  next isLiteral =>
    cases isRead
    refine .number List.takeWhile_append_dropWhile.symm (isNumeral_iff.mp isLiteral) ?_
    intro char isFirst
    have stopped := List.head?_dropWhile_not isNumeralChar chars
    rwa [isFirst] at stopped
  next => cases isRead

theorem readsHere_of_scalar
    {depth : Nat} {chars rest : List Char} {json : Json}
    (isRead : scalar chars = .ok (json, rest)) :
    ReadsHere depth chars json rest := by
  unfold scalar at isRead
  split at isRead
  · cases isRead
  · obtain ⟨_, isWord, same⟩ := exists_of_map_eq_ok isRead
    cases same
    exact .null isWord
  · obtain ⟨_, isWord, same⟩ := exists_of_map_eq_ok isRead
    cases same
    exact .true isWord
  · obtain ⟨_, isWord, same⟩ := exists_of_map_eq_ok isRead
    cases same
    exact .false isWord
  · obtain ⟨_, isQuoted, same⟩ := exists_of_map_eq_ok isRead
    cases same
    exact .text isQuoted
  · exact readsHere_of_numeral isRead

/-- What is read starts behind the gap. -/
theorem readsHere_of_value
    {depth : Nat} {chars rest : List Char} {json : Json}
    (isRead : value depth chars = .ok (json, rest)) :
    ReadsHere depth (skipGap chars) json rest := by
  cases depth with
  | zero => exact readsHere_of_scalar isRead
  | succ depth =>
      rw [value] at isRead
      split at isRead
      next isArray =>
        obtain ⟨_, areItems, same⟩ := exists_of_map_eq_ok isRead
        cases same
        rw [isArray]
        exact .array areItems
      next isObject =>
        obtain ⟨_, areMembers, same⟩ := exists_of_map_eq_ok isRead
        cases same
        rw [isObject]
        exact .object areMembers
      next => exact readsHere_of_scalar isRead

theorem mismatch_ne_ok (due : String) (chars : List Char) (answer : α × List Char) :
    mismatch due chars ≠ .ok answer := by
  unfold mismatch
  split <;> exact nofun

/-- Where both the decoder and the reader of all values read a value, they stop at the same
place. -/
def EndsAlike (decoder : Decoder α) : Prop :=
  ∀ (depth : Nat) (chars rest behind : List Char) (json : Json) (answer : α),
    value depth chars = .ok (json, rest) → decoder chars = .ok (answer, behind) → behind = rest

/-- It is enough to look at values that start right here. -/
theorem EndsAlike.of_readsHere
    {decoder : Decoder α}
    (ignoresGap : ∀ chars, decoder (skipGap chars) = decoder chars)
    (endsHere : ∀ (depth : Nat) (chars rest behind : List Char) (json : Json) (answer : α),
      ReadsHere depth chars json rest → decoder chars = .ok (answer, behind) → behind = rest) :
    EndsAlike decoder := by
  intro depth chars rest behind json answer isRead isTyped
  rw [← ignoresGap] at isTyped
  exact endsHere _ _ _ _ _ _ (readsHere_of_value isRead) isTyped

theorem Settles.behind_eq
    {decoder : Decoder α} {chars rest behind : List Char} {answer : α}
    (settles : Settles decoder chars)
    (stops : Stops isNumeralChar rest)
    (isRead : decoder (chars ++ rest) = .ok (answer, behind)) :
    behind = rest := by
  cases settles with
  | reads reads =>
      cases (reads rest stops).symm.trans isRead
      rfl
  | refuses refuses =>
      obtain ⟨fault, refused⟩ := refuses rest stops
      cases refused.symm.trans isRead

/-- A value that starts like no number is no number. -/
theorem begins_of_number
    {first : Char} {chars literal rest : List Char}
    (split : first :: chars = literal ++ rest)
    (isLiteral : Numeral literal) :
    BeginsNumeral first := by
  obtain ⟨other, others, rfl, begins⟩ := exists_cons_of_numeral isLiteral
  rw [List.cons_append] at split
  rwa [(List.cons.inj split).1]

theorem endsAlike_float : EndsAlike float := by
  refine .of_readsHere float_skipGap ?_
  intro depth chars rest behind json answer here isRead
  cases here with
  | number split isLiteral stops =>
      rw [split] at isRead
      exact (settles_float isLiteral).behind_eq stops isRead
  | null => exact absurd isRead (mismatch_ne_ok "f64" _ _)
  | true => exact absurd isRead (mismatch_ne_ok "f64" _ _)
  | false => exact absurd isRead (mismatch_ne_ok "f64" _ _)
  | text => exact absurd isRead (mismatch_ne_ok "f64" _ _)
  | array => cases isRead
  | object => cases isRead

section

variable {chars behind : List Char}

theorem exists_quoted_of_text
    {answer : String}
    (isRead : text chars = .ok (answer, behind)) :
    ∃ more meant, skipGap chars = '"' :: more ∧ quoted more = .ok (meant, behind) ∧
      answer = String.ofList meant := by
  unfold text at isRead
  split at isRead
  · cases isRead
  next more start =>
    obtain ⟨_, isQuoted, same⟩ := exists_of_map_eq_ok isRead
    cases same
    exact ⟨more, _, start, isQuoted, rfl⟩
  · exact absurd isRead (mismatch_ne_ok _ _ _)

theorem exists_items_of_array
    {item : Decoder α} {answer : List α}
    (isRead : array item chars = .ok (answer, behind)) :
    ∃ more, skipGap chars = '[' :: more ∧ items item more true more = .ok (answer, behind) := by
  unfold array at isRead
  split at isRead
  · cases isRead
  next more start => exact ⟨more, start, isRead⟩
  · exact absurd isRead (mismatch_ne_ok _ _ _)

theorem exists_members_of_dictionary
    {decoder : Decoder α} {answer : List (String × α)}
    (isRead : dictionary decoder chars = .ok (answer, behind)) :
    ∃ more, skipGap chars = '{' :: more ∧
      members decoder more true more = .ok (answer, behind) := by
  unfold dictionary at isRead
  split at isRead
  · cases isRead
  next more start => exact ⟨more, start, isRead⟩
  · exact absurd isRead (mismatch_ne_ok _ _ _)

end

/-- The reader of texts reads those values that are texts. -/
theorem text_eq_ok_iff {depth : Nat} {chars rest : List Char} {input : String} :
    text chars = .ok (input, rest) ↔ value depth chars = .ok (.text input, rest) := by
  constructor
  · intro isRead
    obtain ⟨more, meant, start, isQuoted, rfl⟩ := exists_quoted_of_text isRead
    cases depth <;> simp [value, start, scalar, isQuoted, Except.map]
  · intro isRead
    have here := readsHere_of_value isRead
    generalize skipped : skipGap chars = start at here
    cases here with
    | text isQuoted => simp [text, skipped, isQuoted, Except.map]

theorem endsAlike_text : EndsAlike text := by
  intro depth chars rest behind json answer isRead isText
  cases (text_eq_ok_iff.mp isText).symm.trans isRead
  rfl

section

variable {item : Decoder α} {skipped : Char} {bound chars rest : List Char} {isFirst : Bool}

/-- Items are read up to the end of their array, or one is read before the others. -/
theorem items_cons_cases
    {found : List α}
    (areItems : items item (skipped :: bound) isFirst chars = .ok (found, rest)) :
    (nextItem isFirst chars = .ok none ∧ arrayEnd chars = .ok rest) ∨
    ∃ start first between others,
      nextItem isFirst chars = .ok (some start) ∧ item start = .ok (first, between) ∧
        items item bound false between = .ok (others, rest) := by
  rw [items] at areItems
  split at areItems
  next => cases areItems
  next isEnd =>
    obtain ⟨_, isEnd', same⟩ := exists_of_map_eq_ok areItems
    cases same
    exact .inl ⟨isEnd, isEnd'⟩
  next start isStart =>
    split at areItems
    next => cases areItems
    next first between isItem =>
      obtain ⟨⟨others, _⟩, areOthers, same⟩ := exists_of_map_eq_ok areItems
      cases same
      exact .inr ⟨start, first, between, others, isStart, isItem, areOthers⟩

/-- Members are read up to the end of their object, or one is read before the others. -/
theorem members_cons_cases
    {found : List (String × α)}
    (areMembers : members item (skipped :: bound) isFirst chars = .ok (found, rest)) :
    (nextMember isFirst chars = .ok none ∧ objectEnd chars = .ok rest ∧ found = []) ∨
    ∃ start name behindName behindColon first between others,
      nextMember isFirst chars = .ok (some start) ∧ quoted start = .ok (name, behindName) ∧
        colon behindName = .ok behindColon ∧ item behindColon = .ok (first, between) ∧
          members item bound false between = .ok (others, rest) ∧
            found = (String.ofList name, first) :: others := by
  rw [members] at areMembers
  split at areMembers
  next => cases areMembers
  next isEnd =>
    obtain ⟨_, isEnd', same⟩ := exists_of_map_eq_ok areMembers
    cases same
    exact .inl ⟨isEnd, isEnd', rfl⟩
  next start isStart =>
  split at areMembers
  next => cases areMembers
  next name behindName isName =>
  split at areMembers
  next => cases areMembers
  next behindColon isColon =>
  split at areMembers
  next => cases areMembers
  next first between isItem =>
    obtain ⟨⟨others, _⟩, areOthers, same⟩ := exists_of_map_eq_ok areMembers
    cases same
    exact .inr
      ⟨start, name, behindName, behindColon, first, between, others, isStart, isName, isColon,
        isItem, areOthers, rfl⟩

end

section

variable {decoder : Decoder α} {depth : Nat} {bound chars rest behind : List Char} {isFirst : Bool}

theorem EndsAlike.items
    (alike : EndsAlike decoder)
    {found : List Json} {answer : List α}
    (isRead : items (value depth) bound isFirst chars = .ok (found, rest))
    (isTyped : items decoder bound isFirst chars = .ok (answer, behind)) :
    behind = rest := by
  induction bound generalizing chars isFirst found answer with
  | nil => cases isRead
  | cons skipped bound inductionHypothesis =>
      rcases items_cons_cases isRead with
        ⟨isEnd, ends⟩ | ⟨start, first, between, others, isStart, isItem, areOthers⟩
      all_goals
        rcases items_cons_cases isTyped with
          ⟨isEnd', ends'⟩ | ⟨start', first', between', others', isStart', isItem', areOthers'⟩
      · cases ends.symm.trans ends'
        rfl
      · cases isEnd.symm.trans isStart'
      · cases isStart.symm.trans isEnd'
      · cases isStart.symm.trans isStart'
        cases alike _ _ _ _ _ _ isItem isItem'
        exact inductionHypothesis areOthers areOthers'

theorem EndsAlike.members
    (alike : EndsAlike decoder)
    {found : List (String × Json)} {answer : List (String × α)}
    (isRead : members (value depth) bound isFirst chars = .ok (found, rest))
    (isTyped : members decoder bound isFirst chars = .ok (answer, behind)) :
    behind = rest := by
  induction bound generalizing chars isFirst found answer with
  | nil => cases isRead
  | cons skipped bound inductionHypothesis =>
      rcases members_cons_cases isRead with
        ⟨isEnd, ends, _⟩ | ⟨_, _, _, _, _, _, _, isStart, isName, isColon, isItem, areOthers, _⟩
      all_goals
        rcases members_cons_cases isTyped with
          ⟨isEnd', ends', _⟩ |
            ⟨_, _, _, _, _, _, _, isStart', isName', isColon', isItem', areOthers', _⟩
      · cases ends.symm.trans ends'
        rfl
      · cases isEnd.symm.trans isStart'
      · cases isStart.symm.trans isEnd'
      · cases isStart.symm.trans isStart'
        cases isName.symm.trans isName'
        cases isColon.symm.trans isColon'
        cases alike _ _ _ _ _ _ isItem isItem'
        exact inductionHypothesis areOthers areOthers'

end

section

variable {decoder : Decoder α}

theorem endsAlike_array (alike : EndsAlike decoder) : EndsAlike (array decoder) := by
  intro depth chars rest behind json answer isRead isArray
  have here := readsHere_of_value isRead
  obtain ⟨more, start, areItems⟩ := exists_items_of_array isArray
  rw [start] at here
  cases here with
  | array found => exact alike.items found areItems
  | number split isLiteral =>
      exact absurd (begins_of_number split isLiteral) (by simp [BeginsNumeral])

theorem endsAlike_optional
    (ignoresGap : ∀ chars, decoder (skipGap chars) = decoder chars)
    (alike : EndsAlike decoder) :
    EndsAlike (optional decoder) := by
  intro depth chars rest behind json answer isRead isOptional
  by_cases isNull : ∃ more, skipGap chars = 'n' :: more
  · obtain ⟨more, start⟩ := isNull
    have here := readsHere_of_value isRead
    rw [start] at here
    simp only [optional, start] at isOptional
    obtain ⟨_, isWord, same⟩ := exists_of_map_eq_ok isOptional
    cases same
    cases here with
    | null alsoWord =>
        cases isWord.symm.trans alsoWord
        rfl
    | number split isLiteral =>
        exact absurd (begins_of_number split isLiteral) (by simp [BeginsNumeral])
  · rw [optional_of_not_null ignoresGap (not_exists.mp isNull)] at isOptional
    obtain ⟨⟨found, _⟩, isTyped, same⟩ := exists_of_map_eq_ok isOptional
    cases same
    exact alike _ _ _ _ _ _ isRead isTyped

theorem endsAlike_dictionary (alike : EndsAlike decoder) : EndsAlike (dictionary decoder) := by
  intro depth chars rest behind json answer isRead isDictionary
  have here := readsHere_of_value isRead
  obtain ⟨more, start, areMembers⟩ := exists_members_of_dictionary isDictionary
  rw [start] at here
  cases here with
  | object found => exact alike.members found areMembers
  | number split isLiteral =>
      exact absurd (begins_of_number split isLiteral) (by simp [BeginsNumeral])

end

end Decoder

/-- The text holds this value and nothing else. -/
def IsText (raw : String) (json : Json) : Prop :=
  ∃ depth, Decoder.whole (Decoder.value depth) raw.toList = .ok json

theorem isText_render {depth : Nat} {json : Json} (readable : Readable depth json) :
    IsText json.render json := by
  refine ⟨depth, Decoder.whole_eq_ok_iff.mpr ⟨[], ?_, rfl⟩⟩
  simpa [render] using Decoder.reads_value readable [] stops_nil

end Json
end CompositeIndex
