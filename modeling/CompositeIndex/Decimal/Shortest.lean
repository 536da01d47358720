import CompositeIndex.Decimal.Basic

/-!
# The shortest decimal of a double

A finite double is written with the fewest digits that read back to it. Of two decimals with
that many digits the nearer one is taken; if both are equally near, the tie rule of the
format decides.

The search walks over the grids of one, two, … seventeen digits. On each grid only the two
neighbours of the value need a test, because every decimal that reads back to the double
lies around it.
-/

namespace CompositeIndex
namespace Decimal

/-- Which of two equally near decimals is taken. -/
inductive Tie
  /-- The greater one. -/
  | up
  /-- The one with an even last digit. -/
  | even
  deriving DecidableEq, Repr

/-- What a double is, its sign apart. -/
inductive Magnitude
  | nan
  | infinite
  /-- The number `significand * 2 ^ exponent`. -/
  | finite (significand : Nat) (exponent : Int)
  deriving DecidableEq, Repr

/-- The sign bit is set. -/
def isNegative (value : Float) : Bool :=
  Nat.pow 2 63 ≤ value.toBits.toNat

/-- The magnitude that the bits of a double stand for. -/
def magnitude (value : Float) : Magnitude :=
  let bits := value.toBits.toNat % Nat.pow 2 63
  let scale : Nat := bits / Nat.pow 2 52
  let fraction := bits % Nat.pow 2 52
  if scale = 2047 then
    if fraction = 0 then .infinite else .nan
  else if scale = 0 then .finite fraction (-1074)
  else .finite (Nat.pow 2 52 + fraction) ((scale : Int) - 1075)

/-- A positive quotient of natural numbers. -/
structure Ratio where
  numerator : Nat
  denominator : Nat

/-- The quotient that `significand * 2 ^ exponent` is. -/
def Ratio.ofBinary (significand : Nat) (exponent : Int) : Ratio :=
  if exponent < 0 then ⟨significand, Nat.pow 2 exponent.natAbs⟩
  else ⟨significand * Nat.pow 2 exponent.natAbs, 1⟩

/-- The quotient divided by a power of ten. -/
def Ratio.scaleDown (ratio : Ratio) (power : Int) : Ratio :=
  if power < 0 then ⟨ratio.numerator * Nat.pow 10 power.natAbs, ratio.denominator⟩
  else ⟨ratio.numerator, ratio.denominator * Nat.pow 10 power.natAbs⟩

/-- The least power of ten above the quotient. -/
def Ratio.leadingPoint (ratio : Ratio) : Int :=
  let estimate : Int := (digitCount ratio.numerator : Int) - digitCount ratio.denominator
  let scaled := ratio.scaleDown estimate
  if scaled.numerator < scaled.denominator then estimate else estimate + 1

/-- The decimal reads back to the double with these bits, sign apart. -/
def readsBack (bits : Nat) (decimal : Decimal) : Bool :=
  decimal.toFloat.toBits.toNat % Nat.pow 2 63 == bits

/-- The neighbour of the value on the grid `10 ^ power` that reads back to the double. -/
def onGrid (tie : Tie) (bits : Nat) (ratio : Ratio) (power : Int) : Option Decimal :=
  let scaled := ratio.scaleDown power
  let below := scaled.numerator / scaled.denominator
  let lower := normalize ⟨below, power⟩
  let upper := normalize ⟨below + 1, power⟩
  match readsBack bits lower, readsBack bits upper with
  | false, false => none
  | true, false => some lower
  | false, true => some upper
  | true, true =>
      match compare (2 * scaled.numerator) ((2 * below + 1) * scaled.denominator) with
      | .lt => some lower
      | .gt => some upper
      | .eq =>
          match tie with
          | .up => some upper
          | .even => some (if below % 2 = 0 then lower else upper)

/-- The first decimal that reads back on the grids of `count`, `count + 1`, … digits. -/
def search (tie : Tie) (bits : Nat) (ratio : Ratio) (point : Int) :
    (grids count : Nat) → Option Decimal
  | 0, _ => none
  | grids + 1, count =>
      match onGrid tie bits ratio (point - count) with
      | some decimal => some decimal
      | none => search tie bits ratio point grids (count + 1)

/-- The exact value of `significand * 2 ^ exponent`. -/
def exact (significand : Nat) (exponent : Int) : Decimal :=
  if exponent < 0 then normalize ⟨significand * Nat.pow 5 exponent.natAbs, exponent⟩
  else normalize ⟨significand * Nat.pow 2 exponent.natAbs, 0⟩

/-- The shortest decimal that reads back to the finite double `significand * 2 ^ exponent`
with the given bits. Seventeen digits suffice for every double; were they not to, the exact
value would be written. -/
def shortest (tie : Tie) (bits significand : Nat) (exponent : Int) : Decimal :=
  if significand = 0 then ⟨0, 0⟩
  else
    let ratio := Ratio.ofBinary significand exponent
    (search tie bits ratio ratio.leadingPoint 17 1).getD (exact significand exponent)

end Decimal
end CompositeIndex
