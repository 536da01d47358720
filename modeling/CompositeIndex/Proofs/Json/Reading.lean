import CompositeIndex.Json.Decoder
import CompositeIndex.Proofs.Json.Numeral

/-!
# Reading JSON values

Any JSON value is read by the decoders of its parts, down to a limited depth. What is written is
read back: numbers by their texts, and quoted texts character by character, whatever stands in
them.
-/

namespace CompositeIndex
namespace Json

namespace Decoder

/-- Reads a number, whose text is kept. -/
def numeral : Decoder Json := fun chars =>
  if isNumeral (chars.takeWhile isNumeralChar) then
    .ok (.number (String.ofList (chars.takeWhile isNumeralChar)), chars.dropWhile isNumeralChar)
  else .error (.onNext .badNumber chars)

/-- Reads a value that has no parts. -/
def scalar : Decoder Json
  | [] => .error (.before .endsInValue [])
  | 'n' :: rest => (word ['u', 'l', 'l'] rest).map fun rest => (.null, rest)
  | 't' :: rest => (word ['r', 'u', 'e'] rest).map fun rest => (.boolean true, rest)
  | 'f' :: rest => (word ['a', 'l', 's', 'e'] rest).map fun rest => (.boolean false, rest)
  | '"' :: rest => (quoted rest).map fun (chars, rest) => (.text (String.ofList chars), rest)
  | chars => numeral chars

/-- Reads a value whose parts lie at most so deep in it. -/
def value : (depth : Nat) → Decoder Json
  | 0, chars => scalar (skipGap chars)
  | depth + 1, chars =>
      match skipGap chars with
      | '[' :: rest =>
          (items (value depth) rest true rest).map fun (items, rest) => (.array items, rest)
      | '{' :: rest =>
          (members (value depth) rest true rest).map fun (members, rest) => (.object members, rest)
      | chars => scalar chars

end Decoder

/-- How deep arrays and objects may be nested. -/
def depthLimit : Nat := 127

/-- Reads a text that holds one value. -/
def read (text : String) : Except Fault Json :=
  Decoder.whole (Decoder.value depthLimit) text.toList

/-- The value is nested no deeper than that, and its numbers are numerals. -/
inductive Readable : (depth : Nat) → Json → Prop
  | null {depth : Nat} : Readable depth .null
  | boolean {depth : Nat} {value : Bool} : Readable depth (.boolean value)
  | number
      {depth : Nat} {literal : String}
      (numeral : Numeral literal.toList) :
      Readable depth (.number literal)
  | text {depth : Nat} {value : String} : Readable depth (.text value)
  | array
      {depth : Nat} {items : List Json}
      (all : ∀ item ∈ items, Readable depth item) :
      Readable (depth + 1) (.array items)
  | object
      {depth : Nat} {members : List (String × Json)}
      (all : ∀ member ∈ members, Readable depth member.2) :
      Readable (depth + 1) (.object members)

/-! ## Quoted texts -/

namespace Decoder

theorem length_le_length_flatMap
    {list : List α} {write : α → List Char}
    (notEmpty : ∀ element ∈ list, write element ≠ []) :
    list.length ≤ (list.flatMap write).length := by
  induction list with
  | nil => exact Nat.le_refl 0
  | cons element list inductionHypothesis =>
      obtain ⟨notEmptyFirst, notEmptyOthers⟩ := List.forall_mem_cons.mp notEmpty
      have positive := List.length_pos_iff.mpr notEmptyFirst
      have others := inductionHypothesis notEmptyOthers
      simp only [List.flatMap_cons, List.length_append, List.length_cons]
      omega

theorem hexValue4?_hexDigits :
    ∀ code < 32, ∃ first second third fourth, hexDigits code = [first, second, third, fourth] ∧
      hexValue4? first second third fourth = some code := by
  intro code small
  refine ⟨_, _, _, _, rfl, ?_⟩
  have values : ∀ code < 32, hexValue4? (Nat.digitChar (code / 4096 % 16))
      (Nat.digitChar (code / 256 % 16)) (Nat.digitChar (code / 16 % 16))
      (Nat.digitChar (code % 16)) = some code := by
    decide
  exact values code small

theorem unicodeEscape_hexDigits
    {char : Char}
    (isControl : char.toNat < 32)
    (rest : List Char) :
    unicodeEscape (hexDigits char.toNat ++ rest) = .ok (char, rest) := by
  obtain ⟨first, second, third, fourth, digits, value⟩ :=
    hexValue4?_hexDigits char.toNat isControl
  have notTrailing : isTrailing char.toNat = false := by
    rw [isTrailing, decide_eq_false (by omega), Bool.false_and]
  have notLeading : isLeading char.toNat = false := by
    rw [isLeading, decide_eq_false (by omega), Bool.false_and]
  simp [unicodeEscape, codeUnit, digits, value, notTrailing, notLeading]

/-- How a character stands in a quoted text. -/
inductive Escaped (char : Char) : List Char → Prop
  | short
      {letter : Char}
      (isShort : letter ≠ 'u')
      (isVisible : 32 ≤ letter.toNat)
      (meant : shortEscape? letter = some char) :
      Escaped char ['\\', letter]
  | unicode (isControl : char.toNat < 32) : Escaped char ('\\' :: 'u' :: hexDigits char.toNat)
  | plain
      (notQuote : char ≠ '"')
      (notBackslash : char ≠ '\\')
      (notControl : ¬char.toNat < 32) :
      Escaped char [char]

theorem escaped_escapeChar (char : Char) : Escaped char (escapeChar char) := by
  have short : ∀ letter code, letter ≠ 'u' ∧ 32 ≤ letter.toNat →
      shortEscape? letter = some (Char.ofNat code) → char.toNat = code →
        Escaped char ['\\', letter] := by
    rintro letter code ⟨isShort, isVisible⟩ meant rfl
    rw [Char.ofNat_toNat] at meant
    exact .short isShort isVisible meant
  unfold escapeChar
  split
  next isQuote => exact short '"' 34 (by decide) rfl (by rw [isQuote]; rfl)
  next notQuote =>
  split
  next isBackslash => exact short '\\' 92 (by decide) rfl (by rw [isBackslash]; rfl)
  next notBackslash =>
  split
  next code => exact short 'b' 8 (by decide) rfl code
  split
  next code => exact short 't' 9 (by decide) rfl code
  split
  next code => exact short 'n' 10 (by decide) rfl code
  split
  next code => exact short 'f' 12 (by decide) rfl code
  split
  next code => exact short 'r' 13 (by decide) rfl code
  split
  next isControl => exact .unicode isControl
  next notControl => exact .plain notQuote notBackslash notControl

/-- One character is read back, in one step. -/
theorem quotedUpTo_escapeChar (char skipped : Char) (bound rest : List Char) :
    quotedUpTo (skipped :: bound) (escapeChar char ++ rest) =
      (quotedUpTo bound rest).map fun (chars, rest) => (char :: chars, rest) := by
  have escaped := escaped_escapeChar char
  generalize escapeChar char = written at escaped ⊢
  cases escaped with
  | @short letter isShort _ meant =>
      simp [quotedUpTo, escape, isShort, meant]
  | unicode isControl =>
      simp [quotedUpTo, escape, unicodeEscape_hexDigits isControl]
  | plain notQuote notBackslash notControl =>
      simp [quotedUpTo, notQuote, notBackslash, notControl]

theorem quotedUpTo_append
    {chars bound : List Char}
    (enough : chars.length < bound.length)
    (rest : List Char) :
    quotedUpTo bound (chars.flatMap escapeChar ++ '"' :: rest) = .ok (chars, rest) := by
  -- however long a character is written, it takes one off the bound
  induction chars generalizing bound with
  | nil =>
      cases bound with
      | nil => cases enough
      | cons skipped bound => rfl
  | cons char chars inductionHypothesis =>
      cases bound with
      | nil => cases enough
      | cons skipped bound =>
          rw [List.flatMap_cons, List.append_assoc, quotedUpTo_escapeChar,
            inductionHypothesis (Nat.lt_of_succ_lt_succ enough)]
          rfl

theorem quoted_append (chars rest : List Char) :
    quoted (chars.flatMap escapeChar ++ '"' :: rest) = .ok (chars, rest) := by
  refine quotedUpTo_append ?_ rest
  have longer : chars.length ≤ (chars.flatMap escapeChar).length := by
    refine length_le_length_flatMap fun char _ none => ?_
    have escaped := escaped_escapeChar char
    rw [none] at escaped
    cases escaped
  simp only [List.length_append, List.length_cons]
  omega

/-! ## Values -/

/-- The decoder reads these characters as this answer, whatever follows that cannot be a part of
a number. -/
def Reads (decoder : Decoder α) (chars : List Char) (answer : α) : Prop :=
  ∀ rest, Stops isNumeralChar rest → decoder (chars ++ rest) = .ok (answer, rest)

/-- The characters start like a value. -/
inductive StartsValue : List Char → Prop
  | intro
      {first : Char} {rest : List Char}
      (notGap : isGap first = false)
      (notEnd : first ≠ ']') :
      StartsValue (first :: rest)

theorem skipGap_cons
    {first : Char}
    (notGap : isGap first = false)
    (rest : List Char) :
    skipGap (first :: rest) = first :: rest :=
  List.dropWhile_cons_of_neg (by simp [notGap])

/-- A numeral may start with the character. -/
def BeginsNumeral (first : Char) : Prop :=
  first = '-' ∨ first.isDigit = true

theorem exists_cons_of_numeral {chars : List Char} (isLiteral : Numeral chars) :
    ∃ first rest, chars = first :: rest ∧ BeginsNumeral first := by
  cases isLiteral with
  | positive unsigned =>
      obtain ⟨first, rest, same, isDigit⟩ := unsigned.exists_digit
      exact ⟨first, rest, same, .inr isDigit⟩
  | negative unsigned => exact ⟨'-', _, rfl, .inl rfl⟩

theorem BeginsNumeral.ne
    {first other : Char}
    (begins : BeginsNumeral first)
    (notMinus : other ≠ '-')
    (notDigit : other.isDigit = false) :
    first ≠ other := by
  rintro rfl
  rcases begins with isMinus | isDigit
  · exact notMinus isMinus
  · rw [notDigit] at isDigit
    cases isDigit

theorem BeginsNumeral.not_isGap {first : Char} (begins : BeginsNumeral first) :
    isGap first = false := by
  have isOther : ∀ other : Char, other ≠ '-' → other.isDigit = false → (first == other) = false :=
    fun other notMinus notDigit => beq_false_of_ne (begins.ne notMinus notDigit)
  simp only [isGap, isOther _ (show ' ' ≠ '-' by decide) rfl,
    isOther _ (show '\n' ≠ '-' by decide) rfl, isOther _ (show '\t' ≠ '-' by decide) rfl,
    isOther _ (show '\r' ≠ '-' by decide) rfl, Bool.or_false]

theorem startsValue_renderChars {depth : Nat} {json : Json} (readable : Readable depth json) :
    StartsValue json.renderChars := by
  cases readable with
  | null => exact .intro rfl (by decide)
  | @boolean _ value => cases value <;> exact .intro rfl (by decide)
  | @number _ literal isLiteral =>
      obtain ⟨first, rest, same, begins⟩ := exists_cons_of_numeral isLiteral
      rw [renderChars, same]
      exact .intro begins.not_isGap (begins.ne (by decide) rfl)
  | text => exact .intro rfl (by decide)
  | array all => exact .intro rfl (by decide)
  | object all => exact .intro rfl (by decide)

/-- A value that starts like no array and like no object has no parts. -/
theorem value_eq_scalar
    (depth : Nat)
    {first : Char}
    (notGap : isGap first = false)
    (notArray : first ≠ '[')
    (notObject : first ≠ '{')
    (rest : List Char) :
    value depth (first :: rest) = scalar (first :: rest) := by
  cases depth with
  | zero => rw [value, skipGap_cons notGap]
  | succ depth =>
      rw [value, skipGap_cons notGap]
      split
      next same => exact absurd (List.cons.inj same).1 notArray
      next same => exact absurd (List.cons.inj same).1 notObject
      next => rfl

theorem scalar_eq_numeral
    {first : Char}
    (begins : BeginsNumeral first)
    (rest : List Char) :
    scalar (first :: rest) = numeral (first :: rest) := by
  unfold scalar
  split
  next same => cases same
  next same => exact absurd (List.cons.inj same).1 (begins.ne (by decide) rfl)
  next same => exact absurd (List.cons.inj same).1 (begins.ne (by decide) rfl)
  next same => exact absurd (List.cons.inj same).1 (begins.ne (by decide) rfl)
  next same => exact absurd (List.cons.inj same).1 (begins.ne (by decide) rfl)
  next => rfl

theorem numeral_append
    {literal rest : List Char}
    (isLiteral : Numeral literal)
    (stops : Stops isNumeralChar rest) :
    numeral (literal ++ rest) = .ok (.number (String.ofList literal), rest) := by
  rw [numeral, takeWhile_append_of_stops isLiteral.isNumeralChar stops,
    dropWhile_append_of_stops isLiteral.isNumeralChar stops, if_pos (isNumeral_iff.mpr isLiteral)]

theorem reads_number (depth : Nat) {literal : String} (isLiteral : Numeral literal.toList) :
    Reads (value depth) literal.toList (.number literal) := by
  intro rest stops
  obtain ⟨first, others, same, begins⟩ := exists_cons_of_numeral isLiteral
  have read := numeral_append isLiteral stops
  rw [String.ofList_toList] at read
  rw [← read, same, List.cons_append, value_eq_scalar depth begins.not_isGap
    (begins.ne (by decide) rfl) (begins.ne (by decide) rfl), scalar_eq_numeral begins]

theorem reads_text (depth : Nat) (value : String) :
    Reads (Decoder.value depth) (quote value.toList) (.text value) := by
  intro rest _
  have written : quote value.toList ++ rest =
      '"' :: (value.toList.flatMap escapeChar ++ '"' :: rest) := by
    simp [quote]
  rw [written, value_eq_scalar depth rfl (by decide) (by decide), scalar, quoted_append]
  simp [Except.map]

/-! ## Arrays -/

theorem renderItems_cons (item : Json) (items : List Json) :
    renderItems (item :: items) =
      item.renderChars ++ items.flatMap fun item => ',' :: item.renderChars := by
  induction items generalizing item with
  | nil => simp [renderItems]
  | cons next items inductionHypothesis => simp [renderItems, inductionHypothesis]

/-- What ends a part ends a number. -/
theorem stops_behindPart
    (parts : List α)
    (write : α → List Char)
    {last : Char}
    (isEnd : isNumeralChar last = false)
    (rest : List Char) :
    Stops isNumeralChar ((parts.flatMap fun part => ',' :: write part) ++ last :: rest) := by
  cases parts with
  | nil =>
      rintro char ⟨⟩
      exact isEnd
  | cons part parts =>
      rintro char ⟨⟩
      rfl

theorem nextItem_of_startsValue
    {chars : List Char}
    (starts : StartsValue chars)
    (rest : List Char) :
    nextItem true (chars ++ rest) = .ok (some (chars ++ rest)) := by
  obtain ⟨notGap, notEnd⟩ := starts
  rw [List.cons_append, nextItem, skipGap_cons notGap]
  split
  next same => cases same
  next same => exact absurd (List.cons.inj same).1 notEnd
  next same =>
    cases same
    rfl

theorem nextItem_comma
    {chars : List Char}
    (starts : StartsValue chars)
    (rest : List Char) :
    nextItem false (',' :: (chars ++ rest)) = .ok (some (chars ++ rest)) := by
  obtain ⟨notGap, notEnd⟩ := starts
  have comma : isGap ',' = false := rfl
  simp [nextItem, skipGap_cons comma, skipGap_cons notGap, notEnd]

theorem items_cons
    {item : Decoder α} {isFirst : Bool} {skipped : Char} {bound chars start behind rest : List Char}
    {first : α} {others : List α}
    (next : nextItem isFirst chars = .ok (some start))
    (readFirst : item start = .ok (first, behind))
    (readOthers : items item bound false behind = .ok (others, rest)) :
    items item (skipped :: bound) isFirst chars = .ok (first :: others, rest) := by
  simp [items, next, readFirst, readOthers, Except.map]

section

variable {item : Decoder α} {write : α → Json} {depth : Nat} {bound : List Char}

/-- The items behind the first one are read back, each with the comma in front of it. -/
theorem items_behindFirst
    {others : List α}
    (readable : ∀ other ∈ others, Readable depth (write other))
    (reads : ∀ other ∈ others, Reads item (write other).renderChars other)
    (enough : others.length < bound.length)
    (rest : List Char) :
    items item bound false
        ((others.flatMap fun other => ',' :: (write other).renderChars) ++ ']' :: rest) =
      .ok (others, rest) := by
  induction others generalizing bound with
  | nil =>
      cases bound with
      | nil => cases enough
      | cons skipped bound => rfl
  | cons first others inductionHypothesis =>
      cases bound with
      | nil => cases enough
      | cons skipped bound =>
          obtain ⟨readableFirst, readableOthers⟩ := List.forall_mem_cons.mp readable
          obtain ⟨readsFirst, readsOthers⟩ := List.forall_mem_cons.mp reads
          simp only [List.flatMap_cons, List.cons_append, List.append_assoc]
          exact items_cons (nextItem_comma (startsValue_renderChars readableFirst) _)
            (readsFirst _ (stops_behindPart others _ rfl rest))
            (inductionHypothesis readableOthers readsOthers (Nat.lt_of_succ_lt_succ enough))

theorem items_renderItems
    {values : List α}
    (readable : ∀ value ∈ values, Readable depth (write value))
    (reads : ∀ value ∈ values, Reads item (write value).renderChars value)
    (enough : values.length < bound.length)
    (rest : List Char) :
    items item bound true (renderItems (values.map write) ++ ']' :: rest) =
      .ok (values, rest) := by
  cases bound with
  | nil => cases enough
  | cons skipped bound =>
      cases values with
      | nil => rfl
      | cons first others =>
          obtain ⟨readableFirst, readableOthers⟩ := List.forall_mem_cons.mp readable
          obtain ⟨readsFirst, readsOthers⟩ := List.forall_mem_cons.mp reads
          rw [List.map_cons, renderItems_cons, List.flatMap_map, List.append_assoc]
          exact items_cons (nextItem_of_startsValue (startsValue_renderChars readableFirst) _)
            (readsFirst _ (stops_behindPart others _ rfl rest))
            (items_behindFirst readableOthers readsOthers (Nat.lt_of_succ_lt_succ enough) rest)

theorem length_le_length_renderItems
    {written : List Json}
    (readable : ∀ item ∈ written, Readable depth item) :
    written.length ≤ (renderItems written).length := by
  cases written with
  | nil => exact Nat.le_refl 0
  | cons item others =>
      have starts := startsValue_renderChars (readable item List.mem_cons_self)
      have commas : others.length ≤ (others.flatMap fun item => ',' :: item.renderChars).length :=
        length_le_length_flatMap fun _ _ => List.cons_ne_nil _ _
      rw [renderItems_cons]
      generalize item.renderChars = written at starts ⊢
      obtain ⟨_, _⟩ := starts
      simp only [List.length_append, List.length_cons]
      omega

/-- The text itself is a bound on its items, to which every item adds a character at least. -/
theorem items_of_reads
    (write : α → Json)
    {values : List α}
    (readable : ∀ value ∈ values, Readable depth (write value))
    (reads : ∀ value ∈ values, Reads item (write value).renderChars value)
    (rest : List Char) :
    let chars := renderItems (values.map write) ++ ']' :: rest
    items item chars true chars = .ok (values, rest) := by
  refine items_renderItems readable reads ?_ rest
  have longer := length_le_length_renderItems (List.forall_mem_map.mpr readable)
  rw [List.length_map] at longer
  simp only [List.length_append, List.length_cons]
  omega

theorem reads_array
    {written : List Json}
    (readable : ∀ item ∈ written, Readable depth item)
    (reads : ∀ item ∈ written, Reads (value depth) item.renderChars item) :
    Reads (value (depth + 1)) (renderChars (.array written)) (.array written) := by
  intro rest _
  have start : value (depth + 1) (renderChars (.array written) ++ rest) =
      (items (value depth) (renderItems written ++ ']' :: rest) true
        (renderItems written ++ ']' :: rest)).map fun (items, rest) => (.array items, rest) := by
    simp [renderChars, value, skipGap_cons (show isGap '[' = false from rfl)]
  have readItems := items_of_reads id readable reads rest
  rw [List.map_id] at readItems
  rw [start, readItems]
  rfl

end

/-! ## Objects -/

/-- A member as it is written. -/
def renderMember (member : String × Json) : List Char :=
  quote member.1.toList ++ ':' :: member.2.renderChars

theorem renderMembers_cons (member : String × Json) (members : List (String × Json)) :
    renderMembers (member :: members) =
      renderMember member ++ members.flatMap fun member => ',' :: renderMember member := by
  induction members generalizing member with
  | nil => simp [renderMembers, renderMember]
  | cons next members inductionHypothesis =>
      simp [renderMembers, inductionHypothesis, renderMember]

/-- A member behind the first quote of its name. -/
def behindQuote (member : String × Json) : List Char :=
  member.1.toList.flatMap escapeChar ++ '"' :: ':' :: member.2.renderChars

theorem renderMember_eq (member : String × Json) :
    renderMember member = '"' :: behindQuote member := by
  simp [renderMember, behindQuote, quote]

theorem nextMember_first (chars : List Char) :
    nextMember true ('"' :: chars) = .ok (some chars) :=
  rfl

theorem nextMember_comma (chars : List Char) :
    nextMember false (',' :: '"' :: chars) = .ok (some chars) :=
  rfl

theorem members_cons
    {decoder : Decoder α} {isFirst : Bool} {skipped : Char}
    {bound chars behind rest : List Char} {member : String × Json}
    {first : α} {others : List (String × α)}
    (next : nextMember isFirst chars = .ok (some (behindQuote member ++ behind)))
    (reads : decoder (member.2.renderChars ++ behind) = .ok (first, behind))
    (readOthers : members decoder bound false behind = .ok (others, rest)) :
    members decoder (skipped :: bound) isFirst chars =
      .ok ((member.1, first) :: others, rest) := by
  have named : quoted (behindQuote member ++ behind) =
      .ok (member.1.toList, ':' :: (member.2.renderChars ++ behind)) := by
    simp [behindQuote, quoted_append]
  have punctuated : colon (':' :: (member.2.renderChars ++ behind)) =
      .ok (member.2.renderChars ++ behind) := rfl
  simp [members, next, named, punctuated, reads, readOthers, Except.map]

section

variable {decoder : Decoder α} {write : α → Json} {depth : Nat} {bound : List Char}

/-- The members behind the first one are read back, each with the comma in front of it. -/
theorem members_behindFirst
    {others : List (String × α)}
    (reads : ∀ other ∈ others, Reads decoder (write other.2).renderChars other.2)
    (enough : others.length < bound.length)
    (rest : List Char) :
    members decoder bound false
        ((others.flatMap fun other => ',' :: renderMember (other.1, write other.2)) ++
          '}' :: rest) =
      .ok (others, rest) := by
  induction others generalizing bound with
  | nil =>
      cases bound with
      | nil => cases enough
      | cons skipped bound => rfl
  | cons first others inductionHypothesis =>
      cases bound with
      | nil => cases enough
      | cons skipped bound =>
          obtain ⟨readsFirst, readsOthers⟩ := List.forall_mem_cons.mp reads
          simp only [List.flatMap_cons, List.cons_append, List.append_assoc,
            renderMember_eq (first.1, write first.2)]
          exact members_cons (nextMember_comma _)
            (readsFirst _ (stops_behindPart others _ rfl rest))
            (inductionHypothesis readsOthers (Nat.lt_of_succ_lt_succ enough))

theorem members_renderMembers
    {values : List (String × α)}
    (reads : ∀ value ∈ values, Reads decoder (write value.2).renderChars value.2)
    (enough : values.length < bound.length)
    (rest : List Char) :
    members decoder bound true
        (renderMembers (values.map fun value => (value.1, write value.2)) ++ '}' :: rest) =
      .ok (values, rest) := by
  cases bound with
  | nil => cases enough
  | cons skipped bound =>
      cases values with
      | nil => rfl
      | cons first others =>
          obtain ⟨readsFirst, readsOthers⟩ := List.forall_mem_cons.mp reads
          rw [List.map_cons, renderMembers_cons, List.flatMap_map, List.append_assoc,
            renderMember_eq (first.1, write first.2)]
          exact members_cons (nextMember_first _)
            (readsFirst _ (stops_behindPart others _ rfl rest))
            (members_behindFirst readsOthers (Nat.lt_of_succ_lt_succ enough) rest)

theorem length_le_length_renderMembers (written : List (String × Json)) :
    written.length ≤ (renderMembers written).length := by
  cases written with
  | nil => exact Nat.le_refl 0
  | cons member others =>
      have commas : others.length ≤
          (others.flatMap fun member => ',' :: renderMember member).length :=
        length_le_length_flatMap fun _ _ => List.cons_ne_nil _ _
      rw [renderMembers_cons, renderMember_eq member]
      simp only [List.length_append, List.length_cons]
      omega

/-- The text itself is a bound on its members, to which every member adds a character at
least. -/
theorem members_of_reads
    (write : α → Json)
    {values : List (String × α)}
    (reads : ∀ value ∈ values, Reads decoder (write value.2).renderChars value.2)
    (rest : List Char) :
    let chars := renderMembers (values.map fun value => (value.1, write value.2)) ++ '}' :: rest
    members decoder chars true chars = .ok (values, rest) := by
  refine members_renderMembers reads ?_ rest
  have longer :=
    length_le_length_renderMembers (values.map fun value => (value.1, write value.2))
  rw [List.length_map] at longer
  simp only [List.length_append, List.length_cons]
  omega

theorem reads_object
    {written : List (String × Json)}
    (reads : ∀ member ∈ written, Reads (value depth) member.2.renderChars member.2) :
    Reads (value (depth + 1)) (renderChars (.object written)) (.object written) := by
  intro rest _
  have start : value (depth + 1) (renderChars (.object written) ++ rest) =
      (members (value depth) (renderMembers written ++ '}' :: rest) true
        (renderMembers written ++ '}' :: rest)).map fun (members, rest) =>
          (.object members, rest) := by
    simp [renderChars, value, skipGap_cons (show isGap '{' = false from rfl)]
  have readMembers := members_of_reads id reads rest
  simp only [id_eq, List.map_id'] at readMembers
  rw [start, readMembers]
  rfl

end

/-! ## Any value -/

theorem reads_value {depth : Nat} {json : Json} (readable : Readable depth json) :
    Reads (value depth) json.renderChars json := by
  induction readable with
  | @null depth =>
      intro rest _
      exact value_eq_scalar depth rfl (by decide) (by decide) _
  | @boolean depth value =>
      intro rest _
      cases value <;> exact value_eq_scalar depth rfl (by decide) (by decide) _
  | @number depth _ isLiteral => exact reads_number depth isLiteral
  | @text depth value => exact reads_text depth value
  | array all inductionHypothesis => exact reads_array all inductionHypothesis
  | object _ inductionHypothesis => exact reads_object inductionHypothesis

end Decoder

/-- What is written is read back. -/
theorem read_render {json : Json} (readable : Readable depthLimit json) :
    read json.render = .ok json := by
  have reads := Decoder.reads_value readable [] nofun
  rw [List.append_nil] at reads
  simp [read, render, Decoder.whole, reads, Decoder.skipGap]

/-! ## Lines -/

/-- There is no control among the characters. -/
def IsControlFree (chars : List Char) : Prop :=
  ∀ char ∈ chars, 32 ≤ char.toNat

theorem isControlFree_of_all
    {chars : List Char}
    (all : (chars.all fun char => 32 ≤ char.toNat) = true) :
    IsControlFree chars :=
  fun char member => of_decide_eq_true (List.all_eq_true.mp all char member)

theorem IsControlFree.append
    {first second : List Char}
    (isFirst : IsControlFree first)
    (isSecond : IsControlFree second) :
    IsControlFree (first ++ second) :=
  List.forall_mem_append.mpr ⟨isFirst, isSecond⟩

theorem IsControlFree.cons
    {char : Char} {chars : List Char}
    (notControl : 32 ≤ char.toNat)
    (others : IsControlFree chars) :
    IsControlFree (char :: chars) :=
  List.forall_mem_cons.mpr ⟨notControl, others⟩

theorem IsControlFree.flatMap
    {list : List α} {write : α → List Char}
    (all : ∀ element ∈ list, IsControlFree (write element)) :
    IsControlFree (list.flatMap write) := by
  intro char member
  obtain ⟨element, isElement, inElement⟩ := List.mem_flatMap.mp member
  exact all element isElement char inElement

theorem isControlFree_hexDigits (code : Nat) : IsControlFree (hexDigits code) := by
  have digit : ∀ value < 16, 32 ≤ (Nat.digitChar value).toNat := by decide
  intro char member
  simp only [hexDigits, List.mem_cons, List.not_mem_nil, or_false] at member
  rcases member with rfl | rfl | rfl | rfl <;> exact digit _ (Nat.mod_lt _ (by decide))

theorem isControlFree_escapeChar (char : Char) : IsControlFree (escapeChar char) := by
  have escaped := Decoder.escaped_escapeChar char
  generalize escapeChar char = written at escaped ⊢
  cases escaped with
  | short _ isVisible _ => exact .cons (by decide) (.cons isVisible nofun)
  | unicode => exact .cons (by decide) (.cons (by decide) (isControlFree_hexDigits _))
  | plain _ _ notControl => exact .cons (Nat.le_of_not_lt notControl) nofun

theorem isControlFree_quote (chars : List Char) : IsControlFree (quote chars) :=
  .cons (by decide) (.append (.flatMap fun char _ => isControlFree_escapeChar char)
    (.cons (by decide) nofun))

theorem Numeral.isControlFree {literal : List Char} (isLiteral : Numeral literal) :
    IsControlFree literal := by
  intro char member
  have isNumeralChar := isLiteral.isNumeralChar char member
  simp only [Json.isNumeralChar, isExponentMark, Char.isDigit, Bool.or_eq_true,
    Bool.and_eq_true, beq_iff_eq, decide_eq_true_eq] at isNumeralChar
  rcases isNumeralChar with (((⟨atLeast, _⟩ | rfl) | rfl) | rfl) | rfl | rfl
  · have zero : 48 ≤ char.toNat := atLeast
    omega
  all_goals decide

theorem isControlFree_renderChars {depth : Nat} {json : Json} (readable : Readable depth json) :
    IsControlFree json.renderChars := by
  induction readable with
  | null => exact isControlFree_of_all rfl
  | @boolean _ value => cases value <;> exact isControlFree_of_all rfl
  | number isLiteral => exact isLiteral.isControlFree
  | text => exact isControlFree_quote _
  | @array _ items _ inductionHypothesis =>
      refine .cons (by decide) (.append ?_ (.cons (by decide) nofun))
      cases items with
      | nil => exact nofun
      | cons item others =>
          obtain ⟨isFirst, isOther⟩ := List.forall_mem_cons.mp inductionHypothesis
          rw [Decoder.renderItems_cons]
          exact isFirst.append (.flatMap fun item member => .cons (by decide) (isOther item member))
  | @object _ members _ inductionHypothesis =>
      refine .cons (by decide) (.append ?_ (.cons (by decide) nofun))
      have written : ∀ member ∈ members, IsControlFree (Decoder.renderMember member) :=
        fun member isMember => (isControlFree_quote _).append
          (.cons (by decide) (inductionHypothesis member isMember))
      cases members with
      | nil => exact nofun
      | cons member others =>
          obtain ⟨isFirst, isOther⟩ := List.forall_mem_cons.mp written
          rw [Decoder.renderMembers_cons]
          exact isFirst.append
            (.flatMap fun member isMember => .cons (by decide) (isOther member isMember))

end Json
end CompositeIndex
