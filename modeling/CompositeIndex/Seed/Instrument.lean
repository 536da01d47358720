/-!
# The demonstration instruments

The thirty constituents of the Dow Jones Industrial Average with the price at which each
walk starts and the width of its steps.
-/

namespace CompositeIndex

/-- An instrument of the demonstration data. -/
structure Instrument where
  name : String
  /-- The price at which the walk starts. -/
  initial : Float
  /-- The width of a step. -/
  amplitude : Float

namespace Instrument

/-- The index that the instruments make up. -/
def dowJonesIndex : String := "DJIA"

/-- The instruments in the order in which they are seeded. -/
def dowJones : List Instrument :=
  [⟨"MMM", 190.0, 1.0⟩, ⟨"AXP", 80.0, 1.1⟩, ⟨"AAPL", 139.0, 1.5⟩, ⟨"BA", 183.0, 0.2⟩,
    ⟨"CAT", 95.0, 0.3⟩, ⟨"CVX", 114.0, 0.8⟩, ⟨"CSCO", 35.0, 0.2⟩, ⟨"KO", 43.0, 0.01⟩,
    ⟨"DD", 79.7, 0.2⟩, ⟨"XOM", 83.3, 1.0⟩, ⟨"GE", 30.0, 0.1⟩, ⟨"GS", 251.0, 1.0⟩,
    ⟨"HD", 147.5, 1.0⟩, ⟨"IBM", 180.0, 1.5⟩, ⟨"INTC", 36.0, 0.01⟩, ⟨"JNJ", 124.0, 1.0⟩,
    ⟨"JPM", 92.0, 1.0⟩, ⟨"MCD", 128.0, 1.5⟩, ⟨"MRK", 66.0, 1.0⟩, ⟨"MSFT", 64.0, 1.5⟩,
    ⟨"NKE", 57.8, 1.6⟩, ⟨"PFE", 64.0, 1.0⟩, ⟨"PG", 91.0, 1.0⟩, ⟨"TRV", 124.0, 1.5⟩,
    ⟨"UNH", 168.0, 2.0⟩, ⟨"UTX", 112.0, 1.0⟩, ⟨"VZ", 50.0, 0.5⟩, ⟨"V", 88.53, 0.1⟩,
    ⟨"WMT", 70.76, 0.1⟩, ⟨"DIS", 110.0, 1.0⟩]

end Instrument
end CompositeIndex
