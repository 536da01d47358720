import CompositeIndex.Time.Timestamp

/-!
# A clock under control

The clock stands still until it is told to move, and sleeping moves it by the time slept.
It remembers every sleep.
-/

namespace CompositeIndex

/-- A clock that moves only when it is told to. -/
structure ManualClock where
  now : Timestamp
  /-- Every sleep so far, oldest first. -/
  sleeps : List Duration := []
  deriving DecidableEq, Repr

namespace ManualClock

def startingAt (start : Timestamp) : ManualClock := { now := start }

/-- Moves the clock, backwards for a negative duration; `none` if it leaves the calendar. -/
def advance? (clock : ManualClock) (duration : Duration) : Option ManualClock :=
  (clock.now.shift? duration).map fun now => { clock with now }

def fallAsleep (clock : ManualClock) (duration : Duration) : ManualClock :=
  { clock with sleeps := clock.sleeps ++ [duration] }

/-- Sleeps from beginning to end. -/
def sleep? (clock : ManualClock) (duration : Duration) : Option ManualClock :=
  (clock.fallAsleep duration).advance? duration

end ManualClock
end CompositeIndex
