import CompositeIndex.Text.Layout

/-!
# Durations

A duration is a signed number of nanoseconds, shown as a sequence of whole units from days
down to nanoseconds.
-/

namespace CompositeIndex

def nanosPerSecond : Int := 1000000000

def nanosPerMicro : Int := 1000

def secondsPerDay : Int := 86400

/-- A signed span of time. -/
@[ext]
structure Duration where
  /-- The length in nanoseconds. -/
  nanos : Int
  deriving DecidableEq, Repr

namespace Duration

def ofSeconds (seconds : Int) : Duration :=
  ⟨seconds * nanosPerSecond⟩

def ofMinutes (minutes : Int) : Duration :=
  ofSeconds (60 * minutes)

def ofDays (days : Int) : Duration :=
  ofSeconds (secondsPerDay * days)

/-- The span is longer than nothing. -/
def isPositive (duration : Duration) : Bool :=
  0 < duration.nanos

/-- The whole seconds of the span, the rest being dropped toward zero. -/
def wholeSeconds (duration : Duration) : Int :=
  duration.nanos.tdiv nanosPerSecond

/-- The span itself if it is positive, otherwise the other one. -/
def orElse (duration fallback : Duration) : Duration :=
  if duration.isPositive then duration else fallback

/-- The span taken `count` times. -/
def times (count : Nat) (duration : Duration) : Duration :=
  ⟨count * duration.nanos⟩

/-- The units of a written span with their lengths in nanoseconds, longest first. -/
def units : List (String × Nat) :=
  [("d", 86400000000000), ("h", 3600000000000), ("m", 60000000000), ("s", 1000000000),
    ("ms", 1000000), ("µs", 1000), ("ns", 1)]

/-- The nonzero counts of the given units in a number of nanoseconds. -/
def writeUnits : List (String × Nat) → Nat → String
  | [], _ => ""
  | (unit, size) :: smaller, nanos =>
      (if nanos / size = 0 then "" else Text.digits (nanos / size) ++ unit) ++
        writeUnits smaller (nanos % size)

/-- The span as a sequence of units, such as `1h30m`; nothing at all is `0s`. -/
def text (duration : Duration) : String :=
  if duration.nanos = 0 then "0s"
  else (if duration.nanos < 0 then "-" else "") ++ writeUnits units duration.nanos.natAbs

example : (ofSeconds 10000000000).text = "115740d17h46m40s" := by decide +kernel
example : (⟨100000000000000001000⟩ : Duration).text = "1157407d9h46m40s1µs" := by
  decide +kernel

end Duration
end CompositeIndex
