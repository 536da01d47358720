import Std.Data.ExtTreeMap
import CompositeIndex.Error

/-!
# Divisors

The sum of an index is divided by its divisor, a positive finite number. An index has a
divisor of its own or shares a common one.
-/

namespace CompositeIndex

/-- The number can divide a sum. -/
def isDivisor (value : Float) : Bool :=
  value.isFinite && 0 < value

/-- A positive finite number. -/
structure Divisor where
  value : Float
  accepted : isDivisor value = true

namespace Divisor

/-- Accepts a positive finite number as the divisor of an index. -/
def check (index : String) (value : Float) : Except Failure Divisor :=
  if accepted : isDivisor value = true then .ok ⟨value, accepted⟩
  else .error (.badDivisor index value)

/-- The divisor of the Dow Jones Industrial Average. -/
def dowJones : Divisor where
  value := 0.14602128057775
  accepted := by decide +kernel

end Divisor

/-- The divisors of all indexes. -/
structure Divisors where
  /-- The divisor of the indexes without one of their own. -/
  common : Divisor := Divisor.dowJones
  /-- The indexes with a divisor of their own. -/
  own : Std.ExtTreeMap String Divisor := ∅

namespace Divisors

/-- The divisor of the Dow Jones Industrial Average for every index. -/
def default : Divisors := {}

/-- The name under which a bad common divisor is reported. -/
def everyIndex : String := "*"

/-- One divisor for every index. -/
def new (common : Float) : Except Failure Divisors :=
  (Divisor.check everyIndex common).map fun divisor => { common := divisor }

/-- Gives an index a divisor of its own. -/
def withOwn (divisors : Divisors) (index : String) (value : Float) :
    Except Failure Divisors :=
  (Divisor.check index value).map fun divisor =>
    { divisors with own := divisors.own.insert index divisor }

/-- Gives several indexes divisors of their own, one after the other. -/
def withAll (divisors : Divisors) (values : List (String × Float)) :
    Except Failure Divisors :=
  values.foldlM (fun divisors entry => divisors.withOwn entry.1 entry.2) divisors

def forIndex (divisors : Divisors) (index : String) : Float :=
  (divisors.own[index]?.getD divisors.common).value

end Divisors
end CompositeIndex
