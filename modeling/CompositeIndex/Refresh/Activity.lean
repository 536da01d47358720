import CompositeIndex.Index.Computation

/-!
# What the refresh loop does

The loop walks through phases, asks the store, and reports. All that it does is recorded as
a sequence of activities, oldest first; the log of the loop is read off this record.
-/

namespace CompositeIndex
namespace Refresh

/-- Where the loop stands. -/
inductive Phase
  | idle
  | computing (pass : Nat) (index : String)
  | sleeping (pass : Nat)
  | stopped
  deriving DecidableEq, Repr

/-- The phase as it is shown. -/
def Phase.text : Phase → String
  | .idle => "idle"
  | .computing pass index => "computing " ++ index ++ " (pass " ++ Text.digits pass ++ ")"
  | .sleeping pass => "sleeping after pass " ++ Text.digits pass
  | .stopped => "stopped"

/-- The outcome of a pass. -/
structure PassReport where
  /-- The number of the pass, counted from one. -/
  pass : Nat
  computed : Nat := 0
  failed : Nat := 0
  /-- The pass ended with an index that failed. -/
  aborted : Bool := false
  deriving DecidableEq, Repr

/-- The outcome of a run. -/
structure Summary where
  /-- The number of passes, an interrupted one included. -/
  passes : Nat := 0
  computed : Nat := 0
  failed : Nat := 0
  cancelled : Bool := false
  deriving DecidableEq, Repr

namespace Summary

/-- Counts a pass. -/
def record (summary : Summary) (report : PassReport) : Summary :=
  { summary with
    passes := summary.passes + 1
    computed := summary.computed + report.computed
    failed := summary.failed + report.failed }

/-- Notes that the run was interrupted. -/
def cancel (summary : Summary) : Summary :=
  { summary with cancelled := true }

end Summary

/-- What the loop reports. -/
inductive Report
  | computed (pass : Nat) (value : IndexValue)
  | failed (pass : Nat) (index : String) (failure : Failure)
  | finished (report : PassReport)

/-- One thing that the loop does. -/
inductive Activity
  /-- A run of the given number of indexes starts. -/
  | started (indexes : Nat) (interval : Duration)
  | entered (previous next : Phase)
  | asked (query : Query)
  | answered (reading : Reading)
  | noticed
  /-- The index that was being computed is given up. -/
  | dropped (pass : Nat) (index : String)
  /-- An index is found to have failed. -/
  | complained (pass : Nat) (index : String) (failure : Failure)
  /-- A report is handed over; what the recipient logs meanwhile is kept with it. -/
  | reported (report : Report) (aside : List LogLine)
  | slept (duration : Duration)
  /-- A run has come to its end. -/
  | ended (summary : Summary)

namespace Activity

/-- What is logged about an index that failed: whether it is worth trying again makes the
difference. -/
def complaint (pass : Nat) (index : String) (failure : Failure) : LogLine :=
  let what := "index " ++ index ++ " failed in pass " ++ Text.digits pass
  if failure.isTransient then .warn (what ++ ", will retry: " ++ failure.message)
  else .error (what ++ ": " ++ failure.message)

/-- What is logged at the end of a run. -/
def closing (summary : Summary) : LogLine :=
  .info ("refresh loop stopped after " ++ Text.digits summary.passes ++ " passes (" ++
    Text.digits summary.computed ++ " computed, " ++ Text.digits summary.failed ++ " failed" ++
    (if summary.cancelled then ", cancelled" else "") ++ ")")

/-- What is logged about an activity. -/
def log : Activity → List LogLine
  | .started indexes interval =>
      [.info ("refresh loop started: " ++ Text.digits indexes ++ " indexes, interval " ++
        Text.signedDigits interval.wholeSeconds ++ "s")]
  | .entered previous next =>
      [.debug ("refresh loop: " ++ previous.text ++ " -> " ++ next.text)]
  | .asked _ => []
  | .answered reading => reading.log
  | .noticed => []
  | .dropped pass index =>
      [.debug ("pass " ++ Text.digits pass ++ " cancelled while computing " ++ index)]
  | .complained pass index failure => [complaint pass index failure]
  | .reported _ aside => aside
  | .slept _ => []
  | .ended summary => [closing summary]

/-- The report that an activity hands over. -/
def report? : Activity → Option Report
  | .reported report _ => some report
  | _ => none

/-- The phase that an activity enters. -/
def phase? : Activity → Option Phase
  | .entered _ next => some next
  | _ => none

/-- The query that an activity starts. -/
def query? : Activity → Option Query
  | .asked query => some query
  | _ => none

/-- The sleep that an activity starts. -/
def sleep? : Activity → Option Duration
  | .slept duration => some duration
  | _ => none

end Activity

/-- What a part of a run did, oldest first. -/
abbrev Trace := List Activity

namespace Trace

/-- The log of a trace. -/
def log (trace : Trace) : List LogLine :=
  trace.flatMap Activity.log

/-- The reports handed over, in order. -/
def reports (trace : Trace) : List Report :=
  trace.filterMap Activity.report?

/-- The phases entered, in order. -/
def phases (trace : Trace) : List Phase :=
  trace.filterMap Activity.phase?

/-- The queries started, in order. -/
def queries (trace : Trace) : List Query :=
  trace.filterMap Activity.query?

/-- The sleeps started, in order. -/
def sleeps (trace : Trace) : List Duration :=
  trace.filterMap Activity.sleep?

end Trace
end Refresh
end CompositeIndex
