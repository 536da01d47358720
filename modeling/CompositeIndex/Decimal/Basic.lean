/-!
# Decimal numbers

A non-negative decimal is a natural number times a power of ten. Its normal form carries no
trailing zero, so that two texts of one value (`1.50` and `15e-1`) lead to the same decimal
and therefore to the same double.
-/

namespace CompositeIndex

/-- The non-negative number `digits * 10 ^ exponent`. -/
structure Decimal where
  /-- The significant digits, read as one natural number. -/
  digits : Nat
  /-- The power of ten of the last digit. -/
  exponent : Int
  deriving DecidableEq, Repr

namespace Decimal

/-- Moves at most `fuel` trailing zeros of the digits into the exponent. -/
def stripZeros : Nat → Nat → Int → Decimal
  | 0, digits, exponent => ⟨digits, exponent⟩
  | fuel + 1, digits, exponent =>
      if digits % 10 = 0 then stripZeros fuel (digits / 10) (exponent + 1)
      else ⟨digits, exponent⟩

/-- The decimal of the same value without trailing zeros; zero has exponent zero. -/
def normalize (decimal : Decimal) : Decimal :=
  if decimal.digits = 0 then ⟨0, 0⟩
  else stripZeros (decimal.digits.log2 + 1) decimal.digits decimal.exponent

/-- The number of decimal digits of a natural number, one for zero. -/
def digitCount (number : Nat) : Nat :=
  (Nat.toDigits 10 number).length

/-- The place of the point: the value is `0.d₁d₂… * 10 ^ point`. -/
def point (decimal : Decimal) : Int :=
  digitCount decimal.digits + decimal.exponent

/-- From this place of the point on, every decimal exceeds the doubles. -/
def overflowPoint : Int := 310

/-- Up to this place of the point, every decimal rounds to zero. -/
def underflowPoint : Int := -330

def infinity : Float := Float.ofBits 0x7FF0000000000000

/-- The double nearest to the decimal, ties going to the even one. -/
def toFloat (decimal : Decimal) : Float :=
  if decimal.digits = 0 then 0
  else if overflowPoint ≤ decimal.point then infinity
  else if decimal.point ≤ underflowPoint then 0
  else Float.ofScientific decimal.digits (decimal.exponent < 0) decimal.exponent.natAbs

end Decimal
end CompositeIndex
