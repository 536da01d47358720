import CompositeIndex.Text.Layout
import CompositeIndex.Decimal.Shortest

/-!
# Writing doubles

How the digits of a double are laid out is a matter of the format. A `Layout` records its
decisions: where positional writing ends, what follows an integral number, how an exponent
is marked, and what stands for the values that are no number.
-/

namespace CompositeIndex
namespace Decimal

/-- The decisions of a number format. -/
structure Layout where
  /-- The least place of the point that is written positionally; `none` for no limit. -/
  positionalFrom : Option Int
  /-- The greatest place of the point that is written positionally; `none` for no limit. -/
  positionalTo : Option Int
  /-- What follows the digits of an integral number. -/
  integralEnd : String
  /-- What stands in front of the digits of a non-negative exponent. -/
  exponentPlus : String
  /-- Which of two equally near decimals is written. -/
  tie : Tie
  nan : String
  infinite : String
  negativeInfinite : String

namespace Layout

/-- The place of the point lies in the range that is written positionally. -/
def isPositional (layout : Layout) (point : Int) : Bool :=
  (layout.positionalFrom.all fun least => least ≤ point) &&
    layout.positionalTo.all fun greatest => point ≤ greatest

/-- The digits with the point after the first `point` of them, zeros filling the gaps. -/
def positional (layout : Layout) (digits : List Char) (point : Int) : String :=
  if point ≤ 0 then
    "0." ++ String.ofList (List.replicate point.natAbs '0' ++ digits)
  else if digits.length ≤ point.toNat then
    String.ofList (digits ++ List.replicate (point.toNat - digits.length) '0') ++
      layout.integralEnd
  else
    String.ofList (digits.take point.toNat) ++ "." ++ String.ofList (digits.drop point.toNat)

/-- The digits with the point after the first one, followed by the exponent. -/
def scientific (layout : Layout) (digits : List Char) (point : Int) : String :=
  let exponent := point - 1
  let fraction := digits.drop 1
  String.ofList (digits.take 1) ++
    (if fraction.isEmpty then "" else "." ++ String.ofList fraction) ++ "e" ++
    (if exponent < 0 then "" else layout.exponentPlus) ++ Text.signedDigits exponent

/-- The text of a decimal. -/
def writeDecimal (layout : Layout) (decimal : Decimal) : String :=
  if decimal.digits = 0 then "0" ++ layout.integralEnd
  else
    let digits := Nat.toDigits 10 decimal.digits
    if layout.isPositional decimal.point then layout.positional digits decimal.point
    else layout.scientific digits decimal.point

/-- The text of a double. -/
def write (layout : Layout) (value : Float) : String :=
  match magnitude value with
  | .nan => layout.nan
  | .infinite => if isNegative value then layout.negativeInfinite else layout.infinite
  | .finite significand exponent =>
      (if isNegative value then "-" else "") ++
        layout.writeDecimal
          (shortest layout.tie (value.toBits.toNat % Nat.pow 2 63) significand exponent)

end Layout

/-- Reports and error texts write a number without exponent and without a needless
fraction. -/
def plain : Layout where
  positionalFrom := none
  positionalTo := none
  integralEnd := ""
  exponentPlus := ""
  tie := .up
  nan := "NaN"
  infinite := "inf"
  negativeInfinite := "-inf"

/-- Log lines write an exponent below `10 ^ -4` and from `10 ^ 16` on, and always show that
the number is a double. -/
def logged : Layout where
  positionalFrom := some (-3)
  positionalTo := some 16
  integralEnd := ".0"
  exponentPlus := ""
  tie := .up
  nan := "NaN"
  infinite := "inf"
  negativeInfinite := "-inf"

example : plain.write 0.1 = "0.1" := by decide +kernel
example : plain.write (-0.0) = "-0" := by decide +kernel
example : plain.write 1e21 = "1000000000000000000000" := by decide +kernel
example : plain.write 1e-7 = "0.0000001" := by decide +kernel
example : plain.write 2.98023223876953125e-8 = "0.000000029802322387695313" := by
  decide +kernel
example : logged.write 1e16 = "1e16" := by decide +kernel
example : logged.write 0.0001 = "0.0001" := by decide +kernel
example : logged.write 1.5e-5 = "1.5e-5" := by decide +kernel
example : logged.write 150 = "150.0" := by decide +kernel

end Decimal
end CompositeIndex
