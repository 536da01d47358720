import CompositeIndex.Output.Sink
import CompositeIndex.Refresh.Flag
import CompositeIndex.Refresh.Loop
import CompositeIndex.Store.Change
import CompositeIndex.Time.Clock
import CompositeIndex.Warehouse.Session

/-!
# Rehearsing a run

A rehearsal runs the loop on a clock under control, with a recipient of the reports that
follows a script: at its n-th report it may change the store, move the clock, raise the
flag, let go of the flag, or refuse to go on. A script can also raise the flag while the
store is asked, or during the first sleep.
-/

namespace CompositeIndex
namespace Refresh
namespace Rehearsal

/-- How a store is left by a change. -/
structure Changed (S : Type) where
  result : Except WarehouseError Unit
  store : S
  log : List LogLine

/-- A kind of store that a rehearsal can work on. -/
structure Backend (S C : Type) where
  reader : S → Reader
  change : C → S → Changed S
  /-- A question is answered before the loop looks at the flag again. -/
  answersAtOnce : Bool

/-- Stores in memory answer at once. -/
def Backend.memory : Backend MemoryStore MemoryStore.Change where
  reader := MemoryStore.reader
  change := fun given store => ⟨.ok (), store.apply given, []⟩
  answersAtOnce := true

/-- A warehouse answers after the loop has looked at the flag again. -/
def Backend.warehouse (location : Location) : Backend Warehouse Warehouse.Change where
  reader := Warehouse.reader
  change := fun given tables =>
    let attempt := Warehouse.change location given tables
    ⟨attempt.result.map fun _ => (), attempt.warehouse, attempt.log⟩
  answersAtOnce := false

/-- Makes changes until one of them fails. -/
def Backend.changeAll (backend : Backend S C) : List C → S → Changed S
  | [], store => ⟨.ok (), store, []⟩
  | given :: later, store =>
      let first := backend.change given store
      match first.result with
      | .error _ => first
      | .ok () =>
          let rest := backend.changeAll later first.store
          { rest with log := first.log ++ rest.log }

/-- Makes changes and goes on whether or not they succeed. Only a time that lies outside the
calendar stops them. -/
def Backend.tryAll (backend : Backend S C) : List C → S → Changed S
  | [], store => ⟨.ok (), store, []⟩
  | given :: later, store =>
      let first := backend.change given store
      match first.result with
      | .error .outsideCalendar => first
      | _ =>
          let rest := backend.tryAll later first.store
          { rest with log := first.log ++ rest.log }

/-- What the recipient does at one of the reports, in the order of the fields. -/
structure Hook (C : Type) where
  /-- The number of the report, counted from one. -/
  position : Nat
  /-- Changes of the store; those that fail do not count. -/
  changes : List C := []
  advance : Option Duration := none
  raises : Bool := false
  /-- Lets go of the flag, which cannot be raised from then on. -/
  releases : Bool := false
  refuses : Bool := false

/-- Raises the flag when a value is asked for. -/
structure Trip where
  query : Nat
  /-- The question is never answered. -/
  hangs : Bool
  deriving DecidableEq, Repr

/-- What happens during a rehearsal. -/
structure Script (C : Type) where
  hooks : List (Hook C) := []
  trip : Option Trip := none
  /-- Sleeps have no end, and the flag is raised during the first one. -/
  holds : Bool := false
  /-- Reports are also written in this format. -/
  format : Option Output.Format := none

/-- The world of a rehearsal. -/
structure World (S : Type) where
  store : S
  clock : ManualClock
  /-- The flag is raised. -/
  isRaised : Bool := false
  /-- The flag can still be raised. -/
  isConnected : Bool := true
  asked : Nat := 0
  /-- A question is never answered. -/
  isHung : Bool := false
  /-- The reports taken, the latest one in front. -/
  reports : List Report := []
  /-- Where reports are written. -/
  output : Output.Sink := Output.Sink.unlimited

namespace World

/-- The flag of the run. -/
def flag (world : World S) : Flag :=
  ⟨world.isRaised, world.isConnected⟩

@[simp] theorem isRaised_flag (world : World S) : world.flag.isRaised = world.isRaised := rfl

/-- The world after something has happened to the flag. -/
def receive (signal : Flag.Signal) (world : World S) : World S :=
  let flag := world.flag.receive signal
  { world with isRaised := flag.isRaised, isConnected := flag.isConnected }

/-- Counts a question, which may raise the flag. -/
def ask (trip : Option Trip) (world : World S) : World S :=
  let counted := { world with asked := world.asked + 1 }
  match trip with
  | none => counted
  | some trip =>
      if trip.query = counted.asked then { counted.receive .raised with isHung := trip.hangs }
      else counted

end World

/-- What the recipient does at a report once the store has been changed. -/
def afterChanges
    (hook : Hook C)
    (log : List LogLine)
    (world : World S) : Reaction (World S) :=
  match hook.advance.elim (some world.clock) world.clock.advance? with
  | none => ⟨.error .leftCalendar, world, log⟩
  | some clock =>
      let world := { world with clock }
      let world := if hook.raises then world.receive .raised else world
      let world := if hook.releases then world.receive .released else world
      if hook.refuses then ⟨.error (.output Output.Sink.refusal), world, log⟩
      else ⟨.ok (), world, log⟩

/-- What the recipient does at a report. -/
def runHook
    (backend : Backend S C)
    (hook : Hook C)
    (world : World S) : Reaction (World S) :=
  let changed := backend.tryAll hook.changes world.store
  let world := { world with store := changed.store }
  match changed.result with
  | .error _ => ⟨.error .leftCalendar, world, changed.log⟩
  | .ok () => afterChanges hook changed.log world

/-- Follows several hooks until one of them refuses. -/
def runHooks (backend : Backend S C) : List (Hook C) → World S → Reaction (World S)
  | [], world => ⟨.ok (), world, []⟩
  | hook :: hooks, world =>
      let first := runHook backend hook world
      match first.result with
      | .error _ => first
      | .ok () =>
          let rest := runHooks backend hooks first.world
          { rest with log := first.log ++ rest.log }

/-- Takes a report: it is written first, then recorded, and then the hooks of its number are
followed. -/
def takeReport
    (backend : Backend S C)
    (script : Script C)
    (report : Report)
    (world : World S) : Reaction (World S) :=
  let text := (script.format.map fun format => format.render (.report report)).getD ""
  match world.output.write? text with
  | none =>
      ⟨.error (.output Output.Sink.refusal), { world with output := world.output.close }, []⟩
  | some output =>
      let world := { world with output, reports := report :: world.reports }
      runHooks backend
        (script.hooks.filter fun hook => hook.position == world.reports.length) world

/-- The flag as the loop finds it. Before a pass and before an index the loop looks at it; at the
other moments it waits for the flag and for something else at once, and turns to the flag first.
A question that is answered at once leaves no moment to do so. -/
def isRaised
    (backend : Backend S C)
    (script : Script C)
    (moment : Moment)
    (world : World S) : Bool :=
  match moment with
  | .passStart => world.flag.isRaised
  | .indexStart => world.flag.isRaised
  | .computing => world.flag.cancelled []
  | .awaiting => world.flag.cancelled [] && (world.isHung || !backend.answersAtOnce)
  | .beforeSleep => world.flag.cancelled []
  | .asleep => script.holds || world.flag.cancelled []

/-- The outside of the loop during a rehearsal. -/
def host (backend : Backend S C) (script : Script C) : Host (World S) where
  now := fun world => world.clock.now
  reader := fun world => backend.reader world.store
  isRaised := isRaised backend script
  ask := fun _ world => world.ask script.trip
  report := takeReport backend script
  fallAsleep := fun duration world =>
    { world with clock := world.clock.fallAsleep duration }
  wake := fun duration world =>
    (world.clock.advance? duration).map fun clock => { world with clock }

/-- What the loop is told to do. -/
inductive Call
  | once
  /-- A run, with the flag raised from the start or not. -/
  | run (isRaised : Bool)
  deriving DecidableEq, Repr

/-- What a call answers. -/
inductive Answer
  | pass (report : PassReport)
  | summary (summary : Summary)
  deriving DecidableEq, Repr

/-- How everything stands after a call. -/
structure Outcome where
  answer : Except Halt Answer
  phase : Phase
  now : Timestamp
  /-- Every sleep so far. -/
  sleeps : List Duration
  /-- The number of questions so far. A store that answers at once counts its answers. -/
  queries : Nat

/-- A loop with everything around it. -/
structure Stage (S : Type) where
  standing : Standing (World S)
  trace : Trace := []

namespace Stage

/-- A loop that has not been called yet. -/
def new (world : World S) : Stage S where
  standing := { phase := .idle, world }

/-- The world in which a call starts: a run has a flag of its own. -/
def prepare (call : Call) (world : World S) : World S :=
  match call with
  | .once => world
  | .run isRaised => { world with isRaised, isConnected := true, isHung := false }

/-- The course of a call. -/
def courseOf
    (loop : Loop)
    (host : Host (World S))
    (call : Call)
    (standing : Standing (World S)) : Course (World S) Answer :=
  match call with
  | .once => (loop.runOnce host standing).andThen fun report standing =>
      .pure (.pass report) standing
  | .run _ => (loop.run host standing).andThen fun summary standing =>
      .pure (.summary summary) standing

/-- The number of questions in a trace as the store counts them. -/
def queryCount (backend : Backend S C) (trace : Trace) : Nat :=
  if backend.answersAtOnce then
    trace.countP fun activity => activity matches .answered _
  else trace.queries.length

/-- Makes a call. -/
def perform
    (loop : Loop)
    (backend : Backend S C)
    (script : Script C)
    (call : Call)
    (stage : Stage S) : Outcome × Stage S :=
  let world := prepare call stage.standing.world
  let course := courseOf loop (host backend script) call { stage.standing with world }
  let trace := stage.trace ++ course.trace
  let clock := course.standing.world.clock
  (⟨course.result, course.standing.phase, clock.now, clock.sleeps, queryCount backend trace⟩,
    ⟨course.standing, trace⟩)

/-- Makes calls one after the other; `none` if the clock leaves the calendar or a run does
not end. -/
def performAll?
    (loop : Loop)
    (backend : Backend S C)
    (script : Script C) : List Call → Stage S → Option (List Outcome × Stage S)
  | [], stage => some ([], stage)
  | call :: calls, stage =>
      let (outcome, stage) := perform loop backend script call stage
      match outcome.answer with
      | .error .leftCalendar => none
      | .error .passesExhausted => none
      | _ =>
          (performAll? loop backend script calls stage).map fun (outcomes, stage) =>
            (outcome :: outcomes, stage)

/-- Everything that has been reported, oldest first. -/
def reports (stage : Stage S) : List Report :=
  stage.standing.world.reports.reverse

end Stage
end Rehearsal
end Refresh
end CompositeIndex
