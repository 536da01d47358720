import CompositeIndex.Decimal.Literal
import CompositeIndex.Json.Fault
import CompositeIndex.Json.Value
import CompositeIndex.Text.Excerpt

/-!
# Reading JSON

A decoder reads a value of one type from the front of a text and answers with the rest. It
walks from left to right and stops at the first fault, so that a value of the wrong type is
reported even if the text breaks off behind it.

Repetitions carry a bound on their steps, one character for each. The text itself is such a
bound, since every step takes at least one of its characters.
-/

namespace CompositeIndex
namespace Json

/-- Reads a value from the front of a text. -/
abbrev Decoder (α : Type) := List Char → Except Fault (α × List Char)

namespace Decoder

/-- The character may stand between the parts of a JSON text. -/
def isGap (char : Char) : Bool :=
  char == ' ' || char == '\n' || char == '\t' || char == '\r'

/-- The rest behind the gap in front. -/
def skipGap (chars : List Char) : List Char :=
  chars.dropWhile isGap

/-! ## Quoted texts -/

/-- The value of a hexadecimal digit. -/
def hexValue? (char : Char) : Option Nat :=
  if char.isDigit then some (char.toNat - '0'.toNat)
  else if 'a' ≤ char && char ≤ 'f' then some (char.toNat - 'a'.toNat + 10)
  else if 'A' ≤ char && char ≤ 'F' then some (char.toNat - 'A'.toNat + 10)
  else none

/-- The value of four hexadecimal digits. -/
def hexValue4? (first second third fourth : Char) : Option Nat := do
  let a ← hexValue? first
  let b ← hexValue? second
  let c ← hexValue? third
  let d ← hexValue? fourth
  pure (((a * 16 + b) * 16 + c) * 16 + d)

/-- Reads four hexadecimal digits, which take up four bytes. -/
def codeUnit (chars : List Char) : Except Fault (Nat × List Char) :=
  let read :=
    match chars with
    | first :: second :: third :: fourth :: rest =>
        (hexValue4? first second third fourth).map fun value => (value, rest)
    | _ => none
  match read with
  | some result => .ok result
  | none =>
      if byteCount chars < 4 then .error ⟨.endsInText, 0⟩
      else .error ⟨.badEscape, byteCount chars - 4⟩

/-- The unit is the first half of a surrogate pair. -/
def isLeading (unit : Nat) : Bool := 0xD800 ≤ unit && unit ≤ 0xDBFF

/-- The unit is the second half of a surrogate pair. -/
def isTrailing (unit : Nat) : Bool := 0xDC00 ≤ unit && unit ≤ 0xDFFF

def trailingUnit : List Char → Except Fault (Nat × List Char)
  | [] => .error (.before .endsInText [])
  | '\\' :: [] => .error (.before .endsInText [])
  | '\\' :: 'u' :: rest =>
      match codeUnit rest with
      | .error fault => .error fault
      | .ok (unit, rest) =>
          if isTrailing unit then .ok (unit, rest)
          else .error (.before .loneSurrogate rest)
  | '\\' :: rest => .error (.onNext .brokenSurrogatePair rest)
  | rest => .error (.onNext .brokenSurrogatePair rest)

/-- Reads a character that is given by its code units. -/
def unicodeEscape (chars : List Char) : Except Fault (Char × List Char) :=
  match codeUnit chars with
  | .error fault => .error fault
  | .ok (unit, rest) =>
      if isTrailing unit then .error (.before .loneSurrogate rest)
      else if isLeading unit then
        match trailingUnit rest with
        | .error fault => .error fault
        | .ok (second, rest) =>
            .ok (Char.ofNat ((unit - 0xD800) * 1024 + (second - 0xDC00) + 0x10000), rest)
      else .ok (Char.ofNat unit, rest)

/-- The character that a one-letter escape stands for. -/
def shortEscape? (char : Char) : Option Char :=
  if char = '"' || char = '\\' || char = '/' then some char
  else if char = 'b' then some (Char.ofNat 8)
  else if char = 't' then some (Char.ofNat 9)
  else if char = 'n' then some (Char.ofNat 10)
  else if char = 'f' then some (Char.ofNat 12)
  else if char = 'r' then some (Char.ofNat 13)
  else none

/-- Reads what stands behind a backslash. -/
def escape : List Char → Except Fault (Char × List Char)
  | [] => .error (.before .endsInText [])
  | char :: rest =>
      if char = 'u' then unicodeEscape rest
      else
        match shortEscape? char with
        | some meant => .ok (meant, rest)
        | none => .error (.onNext .badEscape (char :: rest))

/-- Reads a quoted text behind its first quote, in as many steps as `bound` allows. -/
def quotedUpTo : (bound : List Char) → List Char → Except Fault (List Char × List Char)
  | [], chars => .error (.before .endsInText chars)
  | _ :: _, [] => .error (.before .endsInText [])
  | _ :: bound, char :: rest =>
      if char = '"' then .ok ([], rest)
      else if char = '\\' then
        match escape rest with
        | .error fault => .error fault
        | .ok (meant, rest) =>
            (quotedUpTo bound rest).map fun (chars, rest) => (meant :: chars, rest)
      else if char.toNat < 32 then .error (.before .controlCharacter rest)
      else (quotedUpTo bound rest).map fun (chars, rest) => (char :: chars, rest)

/-- Reads a quoted text behind its first quote. -/
def quoted (chars : List Char) : Except Fault (List Char × List Char) :=
  quotedUpTo chars chars

/-! ## Words and numbers -/

def word : List Char → List Char → Except Fault (List Char)
  | [], chars => .ok chars
  | _ :: _, [] => .error (.before .endsInValue [])
  | expected :: word', char :: rest =>
      if char = expected then word word' rest
      else .error (.onNext .unknownWord (char :: rest))

/-- A number of a JSON text. -/
structure Number where
  /-- There is a minus sign. -/
  negative : Bool
  /-- There is neither a point nor an exponent. -/
  isIntegral : Bool
  /-- The size of the number. -/
  size : Decimal
  deriving DecidableEq, Repr

/-- The double nearest to the number. -/
def Number.toFloat (number : Number) : Float :=
  (Decimal.Literal.number number.negative number.size).toFloat

/-- Accepts a number that the doubles can hold. -/
def inRange (number : Number) (rest : List Char) : Except Fault (Number × List Char) :=
  if number.toFloat.isFinite then .ok (number, rest)
  else .error (.before .numberOutOfRange rest)

/-- The largest exponent that is read to its end. -/
def exponentLimit : Nat := 2147483647

/-- The digits behind the one with which a number exceeds the limit of exponents, if there
is such a digit; `value` is the number in front of the given digits. -/
def behindExcess? (value : Nat) : List Char → Option (List Char)
  | [] => none
  | digit :: digits =>
      let value := 10 * value + Decimal.Literal.digitValue digit
      if exponentLimit < value then some digits else behindExcess? value digits

/-- Reads an exponent behind its mark. One that exceeds its limit puts a number out of range
at once, unless it makes the number small or the number is zero. -/
def exponent (isZero : Bool) (chars : List Char) : Except Fault (Int × List Char) :=
  let (negative, rest) := Decimal.Literal.splitSign chars
  let (digits, behind) := Decimal.Literal.splitDigits rest
  let size : Int := Decimal.Literal.digitsValue 0 digits
  if digits.isEmpty then
    match rest with
    | [] => .error (.before .endsInValue [])
    | rest => .error (.onNext .badNumber rest)
  else if negative then .ok (-size, behind)
  else
    match behindExcess? 0 digits with
    | none => .ok (size, behind)
    | some left =>
        if isZero then .ok (size, behind)
        else .error (.before .numberOutOfRange (left ++ behind))

/-- Reads an optional exponent of a number whose digits are known. -/
def optionalExponent
    (negative isIntegral : Bool)
    (size : Decimal) : List Char → Except Fault (Number × List Char)
  | [] => inRange ⟨negative, isIntegral, size⟩ []
  | mark :: rest =>
      if mark = 'e' || mark = 'E' then
        match exponent (size.digits == 0) rest with
        | .error fault => .error fault
        | .ok (power, rest) =>
            inRange ⟨negative, false, ⟨size.digits, size.exponent + power⟩⟩ rest
      else inRange ⟨negative, isIntegral, size⟩ (mark :: rest)

/-- Reads what stands behind the whole part of a number. -/
def afterWhole
    (negative : Bool)
    (whole : Nat) : List Char → Except Fault (Number × List Char)
  | '.' :: rest =>
      let (digits, behind) := Decimal.Literal.splitDigits rest
      if digits.isEmpty then
        match rest with
        | [] => .error (.before .endsInValue [])
        | rest => .error (.onNext .badNumber rest)
      else
        optionalExponent negative false
          ⟨Decimal.Literal.digitsValue whole digits, -(digits.length : Int)⟩ behind
  | chars => optionalExponent negative true ⟨whole, 0⟩ chars

/-- Reads a number behind its sign. A zero in front stands alone. -/
def unsigned (negative : Bool) : List Char → Except Fault (Number × List Char)
  | [] => .error (.before .endsInValue [])
  | first :: rest =>
      if first = '0' then
        match rest with
        | second :: _ =>
            if second.isDigit then .error (.onNext .badNumber rest)
            else afterWhole negative 0 rest
        | [] => afterWhole negative 0 []
      else if first.isDigit then
        let (digits, behind) := Decimal.Literal.splitDigits (first :: rest)
        afterWhole negative (Decimal.Literal.digitsValue 0 digits) behind
      else .error (.onNext .badNumber (first :: rest))

/-! ## Values that do not fit -/

/-- How a number that does not fit is named. Whole numbers of 64 bits are integers. -/
def Number.description (number : Number) : String :=
  let isInteger :=
    number.isIntegral &&
      (if number.negative then 0 < number.size.digits && number.size.digits ≤ Nat.pow 2 63
      else number.size.digits < Nat.pow 2 64)
  if isInteger then
    "integer `" ++ (if number.negative then "-" else "") ++
      Text.digits number.size.digits ++ "`"
  else "floating point `" ++ measureLayout.write number.toFloat ++ "`"

/-- Names the value in front; arrays and objects are not read for that. -/
def describe : List Char → Except Fault (String × List Char)
  | 'n' :: rest => (word ['u', 'l', 'l'] rest).map fun rest => ("null", rest)
  | 't' :: rest => (word ['r', 'u', 'e'] rest).map fun rest => ("boolean `true`", rest)
  | 'f' :: rest =>
      (word ['a', 'l', 's', 'e'] rest).map fun rest => ("boolean `false`", rest)
  | '"' :: rest =>
      (quoted rest).map fun (chars, rest) => ("string " ++ Text.excerpt chars, rest)
  | '[' :: rest => .ok ("sequence", '[' :: rest)
  | '{' :: rest => .ok ("map", '{' :: rest)
  | '-' :: rest =>
      (unsigned true rest).map fun (found, rest) => (found.description, rest)
  | chars =>
      if (chars.head?.map Char.isDigit).getD false then
        (unsigned false chars).map fun (found, rest) => (found.description, rest)
      else .error (.onNext .valueMissing chars)

/-- Refuses the value in front where something else is due. -/
def mismatch (due : String) (chars : List Char) : Except Fault α :=
  match describe chars with
  | .error fault => .error fault
  | .ok (found, rest) =>
      .error (.before (.unfit ("invalid type: " ++ found ++ ", expected " ++ due)) rest)

/-! ## Decoders -/

def text : Decoder String := fun chars =>
  match skipGap chars with
  | [] => .error (.before .endsInValue [])
  | '"' :: rest => (quoted rest).map fun (chars, rest) => (String.ofList chars, rest)
  | chars => mismatch "a string" chars

def float : Decoder Float := fun chars =>
  match skipGap chars with
  | [] => .error (.before .endsInValue [])
  | '-' :: rest => (unsigned true rest).map fun (found, rest) => (found.toFloat, rest)
  | first :: rest =>
      if first.isDigit then
        (unsigned false (first :: rest)).map fun (found, rest) => (found.toFloat, rest)
      else mismatch "f64" (first :: rest)

def optional (value : Decoder α) : Decoder (Option α) := fun chars =>
  match skipGap chars with
  | 'n' :: rest => (word ['u', 'l', 'l'] rest).map fun rest => (none, rest)
  | chars => (value chars).map fun (result, rest) => (some result, rest)

/-- Where the next item of an array starts, if there is one. -/
def nextItem (isFirst : Bool) (chars : List Char) : Except Fault (Option (List Char)) :=
  match skipGap chars with
  | [] => .error (.before .endsInArray [])
  | ']' :: _ => .ok none
  | first :: rest =>
      if isFirst then .ok (some (first :: rest))
      else if first = ',' then
        match skipGap rest with
        | [] => .error (.before .endsInValue [])
        | ']' :: rest => .error (.onNext .trailingComma (']' :: rest))
        | rest => .ok (some rest)
      else .error (.onNext .itemEndMissing (first :: rest))

/-- Reads the end of an array whose items are all known. -/
def arrayEnd (chars : List Char) : Except Fault (List Char) :=
  match skipGap chars with
  | [] => .error (.before .endsInArray [])
  | ']' :: rest => .ok rest
  | ',' :: rest =>
      match skipGap rest with
      | ']' :: rest => .error (.onNext .trailingComma (']' :: rest))
      | rest => .error (.onNext .trailingCharacters rest)
  | rest => .error (.onNext .trailingCharacters rest)

/-- Reads the items of an array, at most as many as `bound` allows, and its end. -/
def items (item : Decoder α) :
    (bound : List Char) → (isFirst : Bool) → Decoder (List α)
  | [], _, chars => .error (.before .endsInArray chars)
  | _ :: bound, isFirst, chars =>
      match nextItem isFirst chars with
      | .error fault => .error fault
      | .ok none => (arrayEnd chars).map fun rest => ([], rest)
      | .ok (some chars) =>
          match item chars with
          | .error fault => .error fault
          | .ok (first, rest) =>
              (items item bound false rest).map fun (others, rest) =>
                (first :: others, rest)

def array (item : Decoder α) : Decoder (List α) := fun chars =>
  match skipGap chars with
  | [] => .error (.before .endsInValue [])
  | '[' :: rest => items item rest true rest
  | chars => mismatch "a sequence" chars

/-- Where the name of the next member of an object starts, behind its first quote, if there
is one. -/
def nextMember (isFirst : Bool) (chars : List Char) : Except Fault (Option (List Char)) :=
  match skipGap chars with
  | [] => .error (.before .endsInObject [])
  | '}' :: _ => .ok none
  | first :: rest =>
      if isFirst then
        if first = '"' then .ok (some rest)
        else .error (.onNext .nameNotQuoted (first :: rest))
      else if first = ',' then
        match skipGap rest with
        | [] => .error (.before .endsInValue [])
        | '"' :: rest => .ok (some rest)
        | '}' :: rest => .error (.onNext .trailingComma ('}' :: rest))
        | rest => .error (.onNext .nameNotQuoted rest)
      else .error (.onNext .memberEndMissing (first :: rest))

def colon (chars : List Char) : Except Fault (List Char) :=
  match skipGap chars with
  | [] => .error (.before .endsInObject [])
  | ':' :: rest => .ok rest
  | rest => .error (.onNext .colonMissing rest)

/-- Reads the end of an object whose members are all known. -/
def objectEnd (chars : List Char) : Except Fault (List Char) :=
  match skipGap chars with
  | [] => .error (.before .endsInObject [])
  | '}' :: rest => .ok rest
  | ',' :: rest => .error (.onNext .trailingComma (',' :: rest))
  | rest => .error (.onNext .trailingCharacters rest)

/-- Reads the members of an object, at most as many as `bound` allows, and its end. -/
def members (value : Decoder α) :
    (bound : List Char) → (isFirst : Bool) → Decoder (List (String × α))
  | [], _, chars => .error (.before .endsInObject chars)
  | _ :: bound, isFirst, chars =>
      match nextMember isFirst chars with
      | .error fault => .error fault
      | .ok none => (objectEnd chars).map fun rest => ([], rest)
      | .ok (some chars) =>
          match quoted chars with
          | .error fault => .error fault
          | .ok (name, rest) =>
              match colon rest with
              | .error fault => .error fault
              | .ok rest =>
                  match value rest with
                  | .error fault => .error fault
                  | .ok (first, rest) =>
                      (members value bound false rest).map fun (others, rest) =>
                        ((String.ofList name, first) :: others, rest)

def dictionary (value : Decoder α) : Decoder (List (String × α)) := fun chars =>
  match skipGap chars with
  | [] => .error (.before .endsInValue [])
  | '{' :: rest => members value rest true rest
  | chars => mismatch "a map" chars

/-- Reads a text that holds one value and nothing else. -/
def whole (value : Decoder α) (chars : List Char) : Except Fault α :=
  match value chars with
  | .error fault => .error fault
  | .ok (result, rest) =>
      match skipGap rest with
      | [] => .ok result
      | rest => .error (.onNext .trailingCharacters rest)

end Decoder
end Json
end CompositeIndex
