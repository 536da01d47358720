import CompositeIndex.Seed.Generator
import CompositeIndex.Seed.Instrument
import CompositeIndex.Warehouse.Operations

/-!
# Random walks

The demonstration prices follow a random walk on a timeline of equally spaced timestamps
that ends just before a given one.
-/

namespace CompositeIndex
namespace Seed

/-- What demonstration data is asked for. -/
structure Options where
  /-- The number of points of each instrument. -/
  points : Nat := 60
  /-- The distance of two points. -/
  step : Duration := Duration.ofMinutes 1
  /-- The timestamp that the walks end before. -/
  finish : Timestamp
  /-- The seed of the random numbers. -/
  seed : UInt64

namespace Options

/-- The distance that is used: a minute in place of one that is not positive. -/
def effectiveStep (options : Options) : Duration :=
  options.step.orElse (Duration.ofMinutes 1)

end Options

/-- The most points that a series can be seeded with. -/
def pointLimit : Nat := Nat.pow 2 31 - 1

/-- The timestamps that lie `count`, `count - 1`, …, one step before the end. -/
def timestampsBack? (finish : Timestamp) (step : Duration) : Nat → Option (List Timestamp)
  | 0 => some []
  | count + 1 => do
      let first ← finish.back? (step.times (count + 1))
      let later ← timestampsBack? finish step count
      pure (first :: later)

/-- The timeline of the points of each instrument, in ascending order. -/
def timeline (options : Options) : Except WarehouseError (List Timestamp) :=
  if pointLimit < options.points then
    .error (.rejected
      ("cannot seed " ++ Text.digits options.points ++ " points per series"))
  else
    match timestampsBack? options.finish options.effectiveStep options.points with
    | some timestamps => .ok timestamps
    | none =>
        .error (.rejected
          (Text.digits options.points ++ " points spaced " ++ options.effectiveStep.text ++
            " apart reach before the earliest timestamp"))

/-- The lowest price that a walk may reach. -/
def priceFloor : Float := 0.01

/-- The price itself, or the lowest one allowed. What is no number gives way to the latter. -/
def clamp (price : Float) : Float :=
  if priceFloor ≤ price then price else priceFloor

/-- The prices of a walk that stands at `price`, one for each timestamp. -/
def walk
    (amplitude : Float) :
    List Timestamp → (price : Float) → Generator → List Warehouse.Sample × Generator
  | [], _, generator => ([], generator)
  | timestamp :: later, price, generator =>
      let drawn := generator.unit
      let moved := clamp (price + (drawn.1 - 0.5) * amplitude)
      let rest := walk amplitude later moved drawn.2
      (⟨timestamp, moved⟩ :: rest.1, rest.2)

/-- The walk of an instrument over a timeline. -/
def instrumentWalk
    (instrument : Instrument)
    (timestamps : List Timestamp)
    (generator : Generator) : List Warehouse.Sample × Generator :=
  walk instrument.amplitude timestamps instrument.initial generator

end Seed
end CompositeIndex
