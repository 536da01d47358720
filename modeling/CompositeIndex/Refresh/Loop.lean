import CompositeIndex.Index.Config
import CompositeIndex.Refresh.Course
import CompositeIndex.Refresh.Schedule

/-!
# The refresh loop

A pass computes every index of the catalog in ascending order of the names and reports each
of them before it turns to the next. Passes follow each other with a pause between them, up
to the number that the schedule allows. A raised flag interrupts the loop: the index in the
making is given up without a report.

The indexes and their constituents are fixed when the loop is built.
-/

namespace CompositeIndex
namespace Refresh

/-- An index with the constituents that it is computed from. -/
structure Plan where
  index : String
  constituents : List String
  deriving DecidableEq, Repr

/-- A loop over the indexes of one catalog. -/
structure Loop where
  aggregator : Aggregator
  plans : List Plan
  schedule : Schedule

namespace Loop

/-- The plans of all indexes of a catalog. -/
def plansOf (config : IndexConfig) (catalog : Catalog) : List Plan :=
  catalog.indexes.map fun index => ⟨index, config.constituentsFor index catalog⟩

/-- Builds the loop of a catalog. The schedule and the divisors are checked; what is wrong
with a single index shows when it is computed. -/
def new
    (catalog : Catalog)
    (config : IndexConfig)
    (schedule : Schedule) : Except Failure Loop :=
  match schedule.validate with
  | .error cause => .error (.invalid cause)
  | .ok () =>
      config.validDivisors.map fun divisors =>
        ⟨Aggregator.new divisors catalog, plansOf config catalog, schedule⟩

/-- What is logged when a loop has been built: the configured names that are no indexes. -/
def warnings (catalog : Catalog) (config : IndexConfig) : List LogLine :=
  (config.unknownIndexes catalog).map fun name =>
    .warn ("configuration mentions " ++ Text.quoted name ++ " which is not tagged " ++
      Tag.indexes.text)

/-! ## One index -/

/-- How the work on an index ends. -/
inductive PlanEnd
  | computed
  | failed
  | interrupted
  deriving DecidableEq, Repr

/-- Waits for the answers to a list of questions, one after the other; answers whether the
flag was raised meanwhile. -/
def await (host : Host σ) : List Reading → Standing σ → Course σ Bool
  | [], standing => .pure false standing
  | reading :: readings, standing =>
      let asked := { standing with world := host.ask reading.query standing.world }
      (Course.note (.asked reading.query) asked).andThen fun _ standing =>
        if host.isRaised .awaiting standing.world then .pure true standing
        else
          (Course.note (.answered reading) standing).andThen fun _ standing =>
            await host readings standing

/-- Reports how the computation of an index ended. -/
def conclude
    (host : Host σ)
    (pass : Nat)
    (index : String)
    (result : Except Failure IndexValue)
    (standing : Standing σ) : Course σ PlanEnd :=
  match result with
  | .ok value =>
      (Course.report host (.computed pass value) standing).andThen fun _ standing =>
        .pure .computed standing
  | .error failure =>
      (Course.note (.complained pass index failure) standing).andThen fun _ standing =>
        (Course.report host (.failed pass index failure) standing).andThen fun _ standing =>
          .pure .failed standing

/-- Gives up the index in the making. -/
def drop (pass : Nat) (index : String) (standing : Standing σ) : Course σ PlanEnd :=
  (Course.note .noticed standing).andThen fun _ standing =>
    (Course.note (.dropped pass index) standing).andThen fun _ standing =>
      .pure .interrupted standing

/-- Computes an index in a window. -/
def computePlan
    (loop : Loop)
    (host : Host σ)
    (pass : Nat)
    (plan : Plan)
    (window : Window)
    (standing : Standing σ) : Course σ PlanEnd :=
  if host.isRaised .computing standing.world then drop pass plan.index standing
  else
    let computation :=
      loop.aggregator.compute (host.reader standing.world) plan.index plan.constituents
        window loop.schedule.reportEach
    (await host computation.readings standing).andThen fun isInterrupted standing =>
      if isInterrupted then drop pass plan.index standing
      else conclude host pass plan.index computation.result standing

/-- Works on an index, unless the flag is raised already. -/
def runPlan
    (loop : Loop)
    (host : Host σ)
    (pass : Nat)
    (plan : Plan)
    (standing : Standing σ) : Course σ PlanEnd :=
  if host.isRaised .indexStart standing.world then
    (Course.note .noticed standing).andThen fun _ standing => .pure .interrupted standing
  else
    (Course.enter (.computing pass plan.index) standing).andThen fun _ standing =>
      match Window.trailing? (host.now standing.world) loop.schedule.span with
      | none => .halt .leftCalendar standing
      | some window => loop.computePlan host pass plan window standing

/-! ## One pass -/

/-- How a pass ends. -/
inductive PassEnd
  | finished (report : PassReport)
  | interrupted (report : PassReport)
  deriving DecidableEq, Repr

/-- The counts of the pass, whichever way it ended. -/
def PassEnd.report : PassEnd → PassReport
  | .finished report => report
  | .interrupted report => report

/-- Works on the given indexes one after the other, `report` being the counts so far. -/
def runPlans
    (loop : Loop)
    (host : Host σ) :
    List Plan → PassReport → Standing σ → Course σ PassEnd
  | [], report, standing => .pure (.finished report) standing
  | plan :: plans, report, standing =>
      (loop.runPlan host report.pass plan standing).andThen fun planEnd standing =>
        match planEnd with
        | .interrupted => .pure (.interrupted report) standing
        | .computed =>
            loop.runPlans host plans { report with computed := report.computed + 1 } standing
        | .failed =>
            let report := { report with failed := report.failed + 1 }
            match loop.schedule.policy with
            | .abortPass => .pure (.finished { report with aborted := true }) standing
            | .skipIndex => loop.runPlans host plans report standing

/-- Works on every index once. -/
def runPass
    (loop : Loop)
    (host : Host σ)
    (pass : Nat)
    (standing : Standing σ) : Course σ PassEnd :=
  loop.runPlans host loop.plans { pass } standing

/-! ## Pass after pass -/

/-- What follows a turn of the loop. -/
inductive Sequel
  /-- Another turn. -/
  | again (summary : Summary)
  /-- The end of the run. -/
  | over (summary : Summary)
  deriving DecidableEq, Repr

/-- Pauses between two passes, unless the flag is raised before or meanwhile. -/
def pause
    (loop : Loop)
    (host : Host σ)
    (summary : Summary)
    (standing : Standing σ) : Course σ Sequel :=
  if host.isRaised .beforeSleep standing.world then
    (Course.note .noticed standing).andThen fun _ standing =>
      .pure (.over summary.cancel) standing
  else
    let interval := loop.schedule.interval
    let asleep := { standing with world := host.fallAsleep interval standing.world }
    (Course.note (.slept interval) asleep).andThen fun _ standing =>
      if host.isRaised .asleep standing.world then
        (Course.note .noticed standing).andThen fun _ standing =>
          .pure (.over summary.cancel) standing
      else
        match host.wake interval standing.world with
        | none => .halt .leftCalendar standing
        | some world => .pure (.again summary) { standing with world }

/-- Reports a finished pass and goes on to the pause, unless it was the last pass. -/
def closePass
    (loop : Loop)
    (host : Host σ)
    (summary : Summary)
    (report : PassReport)
    (standing : Standing σ) : Course σ Sequel :=
  (Course.report host (.finished report) standing).andThen fun _ standing =>
    let summary := summary.record report
    if loop.schedule.endsAfter summary.passes then .pure (.over summary) standing
    else
      (Course.enter (.sleeping report.pass) standing).andThen fun _ standing =>
        loop.pause host summary standing

/-- One turn of the loop: a pass and the pause behind it. -/
def turn
    (loop : Loop)
    (host : Host σ)
    (summary : Summary)
    (standing : Standing σ) : Course σ Sequel :=
  if host.isRaised .passStart standing.world then
    (Course.note .noticed standing).andThen fun _ standing =>
      .pure (.over summary.cancel) standing
  else
    (loop.runPass host (summary.passes + 1) standing).andThen fun passEnd standing =>
      match passEnd with
      | .interrupted report => .pure (.over (summary.record report).cancel) standing
      | .finished report => loop.closePass host summary report standing

/-- Turns of the loop until the run is over, at most `rounds` of them. -/
def turns
    (loop : Loop)
    (host : Host σ) : (rounds : Nat) → Summary → Standing σ → Course σ Summary
  | 0, _, standing => .halt .passesExhausted standing
  | rounds + 1, summary, standing =>
      (loop.turn host summary standing).andThen fun sequel standing =>
        match sequel with
        | .over summary => .pure summary standing
        | .again summary => loop.turns host rounds summary standing

/-- The number of turns that a run may take. Passes are counted in 64 bits; the bound of the
schedule is looked at after a pass, so that there is at least one. -/
def roundLimit (loop : Loop) : Nat :=
  match loop.schedule.maxPasses with
  | some limit => max 1 limit
  | none => Nat.pow 2 64

/-- What a run does before its first turn. -/
def start (loop : Loop) (standing : Standing σ) : Course σ Unit :=
  .note (.started loop.plans.length loop.schedule.interval) standing

/-- What a run does after its last turn. -/
def finish (summary : Summary) (standing : Standing σ) : Course σ Summary :=
  (Course.enter .stopped standing).andThen fun _ standing =>
    (Course.note (.ended summary) standing).andThen fun _ standing =>
      .pure summary standing

/-- A run: passes until the schedule or the flag ends it. -/
def run (loop : Loop) (host : Host σ) (standing : Standing σ) : Course σ Summary :=
  (loop.start standing).andThen fun _ standing =>
    (loop.turns host loop.roundLimit {} standing).andThen finish

/-- A single pass, which nobody interrupts. -/
def runOnce (loop : Loop) (host : Host σ) (standing : Standing σ) : Course σ PassReport :=
  (loop.runPass host.undisturbed 1 standing).andThen fun passEnd standing =>
    (Course.report host (.finished passEnd.report) standing).andThen fun _ standing =>
      (Course.enter .idle standing).andThen fun _ standing =>
        .pure passEnd.report standing

end Loop
end Refresh
end CompositeIndex
