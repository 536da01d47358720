import CompositeIndex.Catalog
import CompositeIndex.Index.Divisors
import CompositeIndex.Index.Value

/-!
# Computing an index

An index is computed from the last values of its constituents inside a window. The values
are asked for one after the other, in the order of the constituents, until one of them
fails; then the whole index fails. Nothing is asked for if there are no constituents or if
one of them is not a product of the catalog.

A `Computation` records the questions with their answers beside its result, so that it can
be told which queries a computation makes and in which order.
-/

namespace CompositeIndex

/-- A question and the answer of the store. -/
structure Reading where
  query : Query
  answer : Answer

namespace Reading

/-- Asks for the value of an instrument. -/
def take (reader : Reader) (window : Window) (instrument : String) : Reading :=
  let query : Query := ⟨instrument, valueColumn, window⟩
  ⟨query, reader.lastValue query⟩

/-- What the answer means for the computation: a missing value is never read as zero, and
a value has to be finite. -/
def value (reading : Reading) : Except Failure Float :=
  match reading.answer with
  | .error error => .error (.ofStore error)
  | .ok (some value) =>
      if value.isFinite then .ok value else .error (.invalid (.notFinite valueColumn))
  | .ok none =>
      .error (.noData reading.query.entry reading.query.window.startText
        reading.query.window.finishText)

/-- How an answer of the store is logged. -/
def answerText : Option Float → String
  | some value => "Some(" ++ Decimal.logged.write value ++ ")"
  | none => "None"

/-- What is logged about a query that the store answers; refusals are not logged. -/
def log (reading : Reading) : List LogLine :=
  match reading.answer with
  | .error _ => []
  | .ok answer =>
      [.debug ("fetched " ++ reading.query.entry ++ "." ++ reading.query.column ++ " in " ++
        reading.query.window.text ++ ": " ++ answerText answer)]

end Reading

def latestValue (reader : Reader) (instrument : String) (window : Window) :
    Except Failure Float :=
  (Reading.take reader window instrument).value

/-- The readings of the instruments in their order, up to the first that fails. -/
def takeReadings (reader : Reader) (window : Window) : List String → List Reading
  | [] => []
  | instrument :: instruments =>
      let reading := Reading.take reader window instrument
      match reading.value with
      | .ok _ => reading :: takeReadings reader window instruments
      | .error _ => [reading]

/-- A computation: its queries and its result. -/
structure Computation where
  readings : List Reading
  result : Except Failure IndexValue

/-- Everything that computing indexes of one catalog needs to know. -/
structure Aggregator where
  divisors : Divisors
  /-- The instruments that may be constituents. -/
  products : Std.ExtTreeSet String

namespace Aggregator

/-- The aggregator for the products of a catalog. -/
def new (divisors : Divisors) (catalog : Catalog) : Aggregator where
  divisors := divisors
  products := Std.ExtTreeSet.ofList catalog.products

/-- The sum of the values from left to right, starting with zero. -/
def total (values : List Float) : Float :=
  values.foldl (fun sum value => sum + value) 0

/-- The index value that the values of the constituents lead to. -/
def assemble
    (aggregator : Aggregator)
    (index : String)
    (window : Window)
    (reportEach : Bool)
    (constituents : List ConstituentValue) : IndexValue :=
  let sum := total (constituents.map (·.value))
  let divisor := aggregator.divisors.forIndex index
  { index, window, sum, divisor
    value := sum / divisor
    constituents := if reportEach then constituents else [] }

/-- The values of the constituents that a list of readings gives. -/
def constituentValues (readings : List Reading) : Except Failure (List ConstituentValue) :=
  readings.mapM fun reading =>
    reading.value.map fun value => ⟨reading.query.entry, value⟩

def compute
    (aggregator : Aggregator)
    (reader : Reader)
    (index : String)
    (constituents : List String)
    (window : Window)
    (reportEach : Bool) : Computation :=
  if constituents.isEmpty then ⟨[], .error (.noConstituents index)⟩
  else
    match constituents.find? fun instrument => !aggregator.products.contains instrument with
    | some unknown => ⟨[], .error (.unknownInstrument index unknown)⟩
    | none =>
        let readings := takeReadings reader window constituents
        ⟨readings,
          (constituentValues readings).map
            (aggregator.assemble index window reportEach)⟩

end Aggregator
end CompositeIndex
