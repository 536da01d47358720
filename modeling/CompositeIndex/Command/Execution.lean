import CompositeIndex.Command.Arguments
import CompositeIndex.Command.Error
import CompositeIndex.Command.Workspace
import CompositeIndex.Output.Sink
import CompositeIndex.Refresh.Loop

/-!
# Carrying out commands

A command works on the files, writes output and logs. It ends with an exit code or an error;
what it has written until then stays.

Everything that can be wrong with the settings of `run` is found before the store is opened.
-/

namespace CompositeIndex
namespace Command

/-- The world of a run: the store does not change, and what is reported is written. -/
structure RunWorld where
  now : Timestamp
  tables : Warehouse
  /-- The number of questions asked so far. -/
  asked : Nat := 0
  /-- Where reports are written. -/
  output : Output.Sink

/-- What a command finds besides the files. -/
structure Surroundings where
  environment : Environment
  now : Timestamp
  runId : RunId
  /-- The seed of the random numbers when none is given. -/
  seed : UInt64
  /-- Where the output goes. -/
  output : Output.Sink := .unlimited
  /-- Whether the user is found to have interrupted a run that has come to this world. -/
  isInterrupted : Refresh.Moment → RunWorld → Bool := fun _ _ => false

/-- How far a command came. -/
structure Execution (α : Type) where
  result : Except CommandError α
  /-- The files as they are left. -/
  workspace : Workspace
  output : String := ""
  log : List LogLine := []

namespace Execution

def pure (answer : α) (workspace : Workspace) : Execution α :=
  { result := .ok answer, workspace }

/-- Answers what has been worked out, or fails, without doing anything. -/
def ofResult (result : Except CommandError α) (workspace : Workspace) : Execution α :=
  { result, workspace }

/-- Goes on if everything succeeded so far. -/
def andThen
    (execution : Execution α)
    (next : α → Workspace → Execution β) : Execution β :=
  match execution.result with
  | .error error => { execution with result := .error error }
  | .ok answer =>
      let rest := next answer execution.workspace
      { rest with
        output := execution.output ++ rest.output
        log := execution.log ++ rest.log }

end Execution

/-! ## What commands have in common -/

/-- The endpoint of the store: the one given, or that of the environment. -/
def endpointOf (arguments : Arguments) (environment : Environment) : String :=
  arguments.store.getD (Location.defaultEndpoint environment)

/-- The names of the files that a command may meet: that of the configuration and that of
the store. -/
def filesOf (arguments : Arguments) (environment : Environment) : List String :=
  let config :=
    match arguments.task with
    | .run given => given.config.toList
    | _ => []
  match Location.ofEndpoint environment (endpointOf arguments environment) with
  | .error _ => config
  | .ok location => if location.isInMemory then config else config ++ [location.path]

def formatOf (arguments : Arguments) (runId : RunId) : Output.Format :=
  match arguments.format with
  | .text => .console
  | .ndjson => .records runId

/-- Opens the store of an endpoint; answers where it lies and its tables. -/
def openEndpoint
    (environment : Environment)
    (endpoint : String)
    (workspace : Workspace) : Execution (Location × Warehouse) :=
  match Location.ofEndpoint environment endpoint with
  | .error error => .ofResult (.error (.warehouse error)) workspace
  | .ok location =>
      match workspace.openStore location with
      | (.error error, workspace) => .ofResult (.error (.warehouse error)) workspace
      | (.ok attempt, workspace) =>
          { result := .ok (location, attempt.warehouse), workspace, log := attempt.log }

/-- The error of a reader of the store in place of one of the warehouse. -/
def asReader : CommandError → CommandError
  | .warehouse error => .store error.toStoreError
  | other => other

/-- Opens the store of an endpoint for reading. -/
def connect
    (environment : Environment)
    (endpoint : String)
    (workspace : Workspace) : Execution Warehouse :=
  let opened := openEndpoint environment endpoint workspace
  ({ opened with result := opened.result.mapError asReader }).andThen
    fun (location, tables) workspace =>
      { result := .ok tables, workspace
        log := [.info ("connected to store at " ++ location.path)] }

def discover (tables : Warehouse) (workspace : Workspace) : Execution Catalog :=
  let discovery := Catalog.discover tables.reader
  { result := discovery.result.mapError .failure, workspace, log := discovery.log }

/-- Writes an event; answers the sink as it is left. A sink that does not take the text ends the
command. -/
def write
    (format : Output.Format)
    (event : Output.Event)
    (sink : Output.Sink)
    (workspace : Workspace) : Execution Output.Sink :=
  match sink.write? (format.render event) with
  | some sink => { result := .ok sink, workspace, output := format.render event }
  | none => .ofResult (.error (.output Output.Sink.refusal)) workspace

/-! ## Showing the catalog -/

def showCatalog
    (surroundings : Surroundings)
    (endpoint : String)
    (format : Output.Format)
    (workspace : Workspace) : Execution Nat :=
  (connect surroundings.environment endpoint workspace).andThen fun tables workspace =>
    (discover tables workspace).andThen fun catalog workspace =>
      (write format (.catalog catalog) surroundings.output workspace).andThen fun _ workspace =>
        .pure 0 workspace

/-! ## Seeding -/

/-- The distance of the points: at least a second, and no more than a duration can hold. -/
def stepOf (seconds : Nat) : Duration :=
  .ofSeconds (max 1 (min seconds Refresh.Schedule.secondsLimit))

/-- What data is asked for. -/
def seedOptions (arguments : SeedArguments) (surroundings : Surroundings) : Seed.Options where
  points := arguments.points
  step := stepOf arguments.step
  finish := surroundings.now
  seed := (arguments.seed.map UInt64.ofNat).getD surroundings.seed

def seedStore
    (arguments : SeedArguments)
    (surroundings : Surroundings)
    (endpoint : String)
    (format : Output.Format)
    (workspace : Workspace) : Execution Nat :=
  (openEndpoint surroundings.environment endpoint workspace).andThen
    fun (location, tables) workspace =>
      let attempt := Seed.run (seedOptions arguments surroundings) tables
      let seeded : Execution Seed.Report :=
        { result := attempt.result.mapError .warehouse
          workspace := workspace.keep location attempt.warehouse
          log := attempt.log }
      seeded.andThen fun report workspace =>
        (write format (.seeded endpoint report) surroundings.output workspace).andThen
          fun _ workspace => .pure 0 workspace

/-! ## Running the loop -/

/-- The configuration of the indexes: the file, if there is one, refined by the overrides.
The divisors have to be valid. -/
def configOf
    (arguments : RunArguments)
    (workspace : Workspace) : Except CommandError IndexConfig := do
  let config ←
    match arguments.config with
    | none => pure IndexConfig.empty
    | some name => (IndexConfig.ofFile name (workspace.readText name)).mapError .failure
  let config ← (config.overrideAll arguments.divisors).mapError .invalid
  let _ ← config.validDivisors.mapError .failure
  pure config

/-- The schedule that the arguments describe. -/
def scheduleOf (arguments : RunArguments) : Except CommandError Refresh.Schedule :=
  let schedule : Refresh.Schedule :=
    { policy := arguments.policy
      reportEach := !arguments.hideProducts
      maxPasses := arguments.passes }
  (schedule.withIntervalSeconds arguments.interval).mapError .invalid

/-- Everything that a run is told, if all of it is in order. -/
def settingsOf
    (arguments : RunArguments)
    (workspace : Workspace) : Except CommandError (IndexConfig × Refresh.Schedule) := do
  let config ← configOf arguments workspace
  let schedule ← scheduleOf arguments
  pure (config, schedule)

/-- A loop that is ready to run on a store. -/
structure ReadyRun where
  loop : Refresh.Loop
  tables : Warehouse
  /-- What is left of the output. -/
  output : Output.Sink

/-- Builds the loop of a catalog. -/
def buildLoop
    (catalog : Catalog)
    (config : IndexConfig)
    (schedule : Refresh.Schedule)
    (workspace : Workspace) : Execution Refresh.Loop :=
  match Refresh.Loop.new catalog config schedule with
  | .error failure => .ofResult (.error (.failure failure)) workspace
  | .ok loop =>
      { result := .ok loop, workspace, log := Refresh.Loop.warnings catalog config }

/-- Prepares a run: checks the settings, opens the store, discovers the catalog, which is
shown on the console, and builds the loop. -/
def prepareRun
    (arguments : RunArguments)
    (surroundings : Surroundings)
    (endpoint : String)
    (format : Output.Format)
    (workspace : Workspace) : Execution ReadyRun :=
  (Execution.ofResult (settingsOf arguments workspace) workspace).andThen
    fun (config, schedule) workspace =>
      (connect surroundings.environment endpoint workspace).andThen fun tables workspace =>
        (discover tables workspace).andThen fun catalog workspace =>
          let shown : Execution Output.Sink :=
            match format with
            | .console => write format (.catalog catalog) surroundings.output workspace
            | .records _ => .pure surroundings.output workspace
          shown.andThen fun sink workspace =>
            (buildLoop catalog config schedule workspace).andThen fun loop workspace =>
              .pure ⟨loop, tables, sink⟩ workspace

namespace RunWorld

/-- The world in which a run begins. What has been written before is no output of the run. -/
def initial (ready : ReadyRun) (now : Timestamp) : RunWorld where
  now := now
  tables := ready.tables
  output := { ready.output with taken := [] }

/-- Writes a report. A sink that does not take it is closed and ends the run. -/
def takeReport
    (format : Output.Format)
    (report : Refresh.Report)
    (world : RunWorld) : Refresh.Reaction RunWorld :=
  match world.output.write? (format.render (.report report)) with
  | some output => { result := .ok (), world := { world with output } }
  | none =>
      { result := .error (.output Output.Sink.refusal)
        world := { world with output := world.output.close } }

/-- The outside of the loop. Sleeping moves the clock. -/
def host
    (isInterrupted : Refresh.Moment → RunWorld → Bool)
    (format : Output.Format) : Refresh.Host RunWorld where
  now := RunWorld.now
  reader := fun world => world.tables.reader
  isRaised := isInterrupted
  ask := fun _ world => { world with asked := world.asked + 1 }
  report := takeReport format
  fallAsleep := fun _ world => world
  wake := fun duration world =>
    (world.now.shift? duration).map fun now => { world with now }

end RunWorld

/-- What breaking off means for the command. -/
def ofHalt : Refresh.Halt → CommandError
  | .output problem => .failure (.output problem)
  | .leftCalendar => .failure (.output "the clock left the calendar")
  | .passesExhausted => .failure (.output "the passes can no longer be counted")

/-- The exit code of a run in which indexes have failed. -/
def indexFailureCode : Nat := 5

/-- The exit code of a run. -/
def exitCodeOf (summary : Refresh.Summary) : Nat :=
  if 0 < summary.failed then indexFailureCode else 0

/-- Carries out all passes of a run. -/
def finishRun
    (ready : ReadyRun)
    (surroundings : Surroundings)
    (format : Output.Format)
    (workspace : Workspace) : Execution Nat :=
  let course := ready.loop.run (RunWorld.host surroundings.isInterrupted format)
    { phase := .idle, world := .initial ready surroundings.now }
  { result := (course.result.mapError ofHalt).map exitCodeOf
    workspace
    output := course.standing.world.output.text
    log := course.trace.log }

/-! ## Any command -/

/-- How far a command comes before its first pass. -/
inductive Beginning
  | over (code : Nat)
  /-- The passes of a loop follow. -/
  | ready (run : ReadyRun)

/-- What is logged before anything else. -/
def opening (endpoint : String) : LogLine :=
  .debug ("using store " ++ endpoint)

/-- Carries out a command up to its first pass. -/
def start
    (arguments : Arguments)
    (surroundings : Surroundings)
    (workspace : Workspace) : Execution Beginning :=
  let endpoint := endpointOf arguments surroundings.environment
  let format := formatOf arguments surroundings.runId
  let execution : Execution Beginning :=
    match arguments.task with
    | .run given =>
        (prepareRun given surroundings endpoint format workspace).andThen
          fun run workspace => .pure (.ready run) workspace
    | .catalog =>
        (showCatalog surroundings endpoint format workspace).andThen
          fun code workspace => .pure (.over code) workspace
    | .seed given =>
        (seedStore given surroundings endpoint format workspace).andThen
          fun code workspace => .pure (.over code) workspace
  { execution with log := opening endpoint :: execution.log }

def execute
    (arguments : Arguments)
    (surroundings : Surroundings)
    (workspace : Workspace) : Execution Nat :=
  (start arguments surroundings workspace).andThen fun beginning workspace =>
    match beginning with
    | .over code => .pure code workspace
    | .ready run =>
        finishRun run surroundings (formatOf arguments surroundings.runId) workspace

/-- The exit code of a command, whether it failed or not. -/
def Execution.exitCode (execution : Execution Nat) : Nat :=
  match execution.result with
  | .ok code => code
  | .error error => error.exitCode

end Command
end CompositeIndex
