import CompositeIndex.Decimal.Basic

/-!
# Number literals

The grammar of the numbers that a divisor override may give: an optional sign, then one of
the words `inf`, `infinity` and `nan` in any letter case, or decimal digits with an optional
point, at least one of them, and an optional exponent. Neither blanks nor digit separators
are part of it.
-/

namespace CompositeIndex
namespace Decimal

/-- A number as it is written. -/
inductive Literal
  | nan
  | infinite (negative : Bool)
  | number (negative : Bool) (decimal : Decimal)
  deriving DecidableEq, Repr

namespace Literal

/-- The double that the literal stands for. -/
def toFloat : Literal → Float
  | .nan => Float.ofBits 0x7FF8000000000000
  | .infinite negative => if negative then -infinity else infinity
  | .number negative decimal =>
      let size := decimal.normalize.toFloat
      if negative then -size else size

/-- The value of a decimal digit. -/
def digitValue (char : Char) : Nat :=
  char.toNat - '0'.toNat

/-- The natural number that the digits continue from `start`. -/
def digitsValue (start : Nat) (digits : List Char) : Nat :=
  digits.foldl (fun value digit => 10 * value + digitValue digit) start

/-- Splits a sign off; no sign counts as a plus. -/
def splitSign : List Char → Bool × List Char
  | '-' :: rest => (true, rest)
  | '+' :: rest => (false, rest)
  | chars => (false, chars)

/-- Splits the digits at the front off. -/
def splitDigits (chars : List Char) : List Char × List Char :=
  (chars.takeWhile Char.isDigit, chars.dropWhile Char.isDigit)

/-- Splits a point and the digits behind it off; both may be missing. -/
def splitFraction : List Char → List Char × List Char
  | '.' :: rest => splitDigits rest
  | chars => ([], chars)

/-- Reads an exponent that takes up all characters; no characters count as zero. -/
def exponent? : List Char → Option Int
  | [] => some 0
  | mark :: rest =>
      if mark = 'e' || mark = 'E' then
        let (negative, digits) := splitSign rest
        if digits.isEmpty || !digits.all Char.isDigit then none
        else
          let size : Int := digitsValue 0 digits
          some (if negative then -size else size)
      else none

/-- Reads an unsigned decimal that takes up all characters. -/
def decimal? (chars : List Char) : Option Decimal :=
  let (whole, afterWhole) := splitDigits chars
  let (fraction, afterFraction) := splitFraction afterWhole
  if whole.isEmpty && fraction.isEmpty then none
  else
    (exponent? afterFraction).map fun exponent =>
      ⟨digitsValue (digitsValue 0 whole) fraction, exponent - fraction.length⟩

/-- Reads a literal that takes up all characters. -/
def ofChars? (chars : List Char) : Option Literal :=
  let (negative, rest) := splitSign chars
  let word := rest.map Char.toLower
  if word = "inf".toList || word = "infinity".toList then some (.infinite negative)
  else if word = "nan".toList then some .nan
  else (decimal? rest).map (.number negative)

/-- Reads a literal that is the whole text. -/
def ofString? (text : String) : Option Literal :=
  ofChars? text.toList

end Literal
end Decimal
end CompositeIndex
