import CompositeIndex.Time.Window

/-!
# The schedule of the refresh loop

A schedule says how often every index is computed, how far a window reaches back, what an
index that fails means for the rest of its pass, and after how many passes the loop ends.
-/

namespace CompositeIndex
namespace Refresh

/-- What happens to the rest of a pass when an index fails. -/
inductive FailurePolicy
  | skipIndex
  | abortPass
  deriving DecidableEq, Repr

namespace FailurePolicy

/-- The name of the policy in settings. -/
def name : FailurePolicy → String
  | .skipIndex => "skip_index"
  | .abortPass => "abort_pass"

/-- The policy of a name. -/
def ofName? (name : String) : Option FailurePolicy :=
  if name = FailurePolicy.skipIndex.name then some .skipIndex
  else if name = FailurePolicy.abortPass.name then some .abortPass
  else none

end FailurePolicy

/-- When and how the indexes are computed. -/
structure Schedule where
  /-- The pause between two passes. -/
  interval : Duration := Duration.ofSeconds 1
  /-- What an index that fails means for its pass. -/
  policy : FailurePolicy := .skipIndex
  /-- The values of the constituents are reported as well. -/
  reportEach : Bool := true
  /-- The number of passes after which the loop ends; without one it goes on. -/
  maxPasses : Option Nat := none
  /-- How far the windows reach back. -/
  span : Duration := Window.defaultSpan
  deriving DecidableEq, Repr

namespace Schedule

/-- Accepts pauses of at least a second and windows that are not empty. -/
def validate (schedule : Schedule) : Except Invalid Unit :=
  if schedule.interval.nanos < nanosPerSecond then .error .shortInterval
  else if !schedule.span.isPositive then .error .emptyWindow
  else .ok ()

/-- The most seconds that a duration can hold. -/
def secondsLimit : Nat := Nat.pow 2 63 - 1

/-- The schedule with a pause of whole seconds; the result has to be valid. -/
def withIntervalSeconds (schedule : Schedule) (seconds : Nat) : Except Invalid Schedule :=
  if secondsLimit < seconds then .error (.longInterval seconds)
  else
    let changed := { schedule with interval := Duration.ofSeconds seconds }
    changed.validate.map fun _ => changed

/-- The loop ends after that many passes. -/
def endsAfter (schedule : Schedule) (passes : Nat) : Bool :=
  schedule.maxPasses.any fun limit => limit ≤ passes

end Schedule
end Refresh
end CompositeIndex
