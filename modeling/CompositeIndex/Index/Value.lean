import CompositeIndex.Time.Window

/-!
# Index values

The result of computing an index: the sum of the latest values of its constituents, the
divisor, and the quotient of the two, with the constituents themselves if they are asked
for.
-/

namespace CompositeIndex

/-- The latest value of a constituent. -/
structure ConstituentValue where
  instrument : String
  value : Float

/-- A computed index. -/
structure IndexValue where
  index : String
  /-- The sum divided by the divisor. -/
  value : Float
  sum : Float
  divisor : Float
  window : Window
  /-- The values of the constituents in the order of the computation, or nothing if they
  were not asked for. -/
  constituents : List ConstituentValue

def ConstituentValue.toJson (constituent : ConstituentValue) : Json :=
  .object [("instrument", .text constituent.instrument), ("value", .measure constituent.value)]

namespace IndexValue

/-- The value of a constituent, if the constituents were asked for. -/
def constituent? (value : IndexValue) (instrument : String) : Option Float :=
  (value.constituents.find? fun constituent => constituent.instrument == instrument).map
    (·.value)

/-- The members of the JSON object of an index value. Without constituents there is no
member for them. -/
def members (value : IndexValue) : List (String × Json) :=
  [("index", .text value.index), ("value", .measure value.value), ("sum", .measure value.sum),
    ("divisor", .measure value.divisor), ("window", value.window.toJson)] ++
    if value.constituents.isEmpty then []
    else [("constituents", .array (value.constituents.map ConstituentValue.toJson))]

def toJson (value : IndexValue) : Json :=
  .object value.members

end IndexValue
end CompositeIndex
