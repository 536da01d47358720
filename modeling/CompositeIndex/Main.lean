import CompositeIndex.Command.Execution
import CompositeIndex.Command.Usage
import Std.Time.DateTime.Timestamp

/-!
# The program

The files that a command may meet are read before it starts, and the store is written back
when it is done, or before the first pass of a loop. Between two passes the program sleeps.
Output goes to the standard output; warnings, errors and the reason of a failure go to the
standard error.
-/

namespace CompositeIndex
namespace Command
namespace Program

/-! ## The surroundings -/

def currentTime : IO Timestamp := do
  let sinceEpoch ← Std.Time.Timestamp.now
  match Timestamp.ofNanos? sinceEpoch.toNanosecondsSinceUnixEpoch.val 0 with
  | some now => pure now
  | none => throw (IO.userError "the clock shows a time outside the calendar")

def randomNumber (bytes : Nat) : IO Nat := do
  let random ← IO.getRandomBytes (USize.ofNat bytes)
  pure (random.toList.foldl (fun number byte => 256 * number + byte.toNat) 0)

/-- What a command finds besides the files. -/
def currentSurroundings : IO Surroundings := do
  let environment : Environment :=
    { programHome := ← IO.getEnv "TICKDEX_HOME"
      userHome := ← IO.getEnv "HOME" }
  pure
    { environment
      now := ← currentTime
      runId := .ofRandom (← randomNumber 16)
      seed := .ofNat (← randomNumber 8) }

/-! ## Files -/

/-- What is at a path. -/
def nodeAt (path : Path) : IO (Option Node) := do
  match ← (IO.FS.readBinFile path.text).toBaseIO with
  | .ok bytes => pure (some (.ofBytes bytes))
  | .error (.inappropriateType ..) => pure (some .directory)
  | .error _ => pure none

/-- The path is worth looking at: it leads on from a directory. -/
def isReachable (workspace : Workspace) (path : Path) : Bool :=
  !path.isAbove && (workspace.node? path.dropLast) matches some .directory

/-- Adds what is at a path. -/
def loadPath (workspace : Workspace) (path : Path) : IO Workspace := do
  if isReachable workspace path then
    match ← nodeAt path with
    | some node => pure (workspace.put path node)
    | none => pure workspace
  else pure workspace

/-- The files of the given names, with everything on the way to them. -/
def load (names : List String) : IO Workspace :=
  (names.flatMap fun name => Path.trail (Path.startOf name) (Path.partsOf name)).foldlM
    loadPath Workspace.empty

/-- Makes what is at a path, if it is a directory or a store. -/
def save (path : Path) : Node → IO Unit
  | .directory => unless path.isAbove do IO.FS.createDirAll path.text
  | .store tables => IO.FS.writeFile path.text (Warehouse.Snapshot.render tables)
  | _ => pure ()

/-- Makes the directories and the stores of a workspace. -/
def saveAll (workspace : Workspace) : IO Unit :=
  workspace.nodes.toList.forM fun entry => save entry.1 entry.2

/-! ## Output -/

def put (output : String) : IO Unit := do
  let out ← IO.getStdout
  out.putStr output
  out.flush

/-- Writes the log lines that are not merely of interest. -/
def complain (log : List LogLine) : IO Unit :=
  (log.filter fun line => line.level == .warn || line.level == .error).forM fun line =>
    IO.eprintln line.render

def fail (error : CommandError) : IO Nat := do
  IO.eprintln ("error: " ++ error.message)
  pure error.exitCode

/-! ## Passes -/

/-- The number of milliseconds that the program sleeps at a stretch. -/
def stretch : Nat := 1000000000

def nanosPerMilli : Int := 1000000

def sleepMillis (millis : Nat) : IO Unit := do
  if millis ≤ stretch then
    IO.sleep millis.toUInt32
  else
    IO.sleep stretch.toUInt32
    sleepMillis (millis - stretch)
termination_by millis
decreasing_by
  simp only [stretch] at *
  omega

/-- The outside of the loop. The clock is read before every pass and need not move with the
sleep. An interrupt ends the program. -/
def host (format : Output.Format) : Refresh.Host RunWorld :=
  { RunWorld.host (fun _ _ => false) format with wake := fun _ world => some world }

/-- Carries out the passes of a run and sleeps between them. -/
partial def runPasses
    (run : ReadyRun)
    (format : Output.Format)
    (summary : Refresh.Summary)
    (phase : Refresh.Phase) : IO Nat := do
  let course := run.loop.turn (host format) summary
    { phase, world := .initial run (← currentTime) }
  complain course.trace.log
  put course.standing.world.output.text
  match course.result with
  | .error halt => fail (ofHalt halt)
  | .ok (.over summary) => pure (exitCodeOf summary)
  | .ok (.again summary) =>
      sleepMillis (run.loop.schedule.interval.nanos / nanosPerMilli).toNat
      runPasses run format summary course.standing.phase

/-! ## Commands -/

def carryOut (arguments : Arguments) : IO Nat := do
  let surroundings ← currentSurroundings
  let names := filesOf arguments surroundings.environment
  let execution := start arguments surroundings (← load names)
  saveAll execution.workspace
  complain execution.log
  put execution.output
  match execution.result with
  | .error error => fail error
  | .ok (.over code) => pure code
  | .ok (.ready run) => runPasses run (formatOf arguments surroundings.runId) {} .idle

/-- Answers a command line that describes no command. -/
def refuse (words : List String) (error : UsageError) : IO Nat := do
  if error.isRequest then
    put (error.message words)
  else
    IO.eprint (error.message words)
  pure error.exitCode

def run (words : List String) : IO Nat := do
  match Arguments.parse words with
  | .error error => refuse words error
  | .ok arguments =>
      try carryOut arguments
      catch problem => fail (.failure (.output problem.toString))

end Program
end Command
end CompositeIndex

def main (words : List String) : IO UInt32 := do
  pure (← CompositeIndex.Command.Program.run words).toUInt32
