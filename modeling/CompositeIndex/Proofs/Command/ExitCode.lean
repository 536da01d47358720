import Mathlib
import CompositeIndex.Command.Execution
import CompositeIndex.Proofs.Refresh.Accounts
import CompositeIndex.Refresh.Rehearsal

/-!
# What a run says about its failures

The counts of a run agree with what it has reported, however it ends. The command that runs the
loop derives its exit code from these counts alone, so that the exit code says whether an index
has failed.
-/

namespace CompositeIndex
namespace Command

open Refresh (AgreesWith Host Loop Report Schedule Standing Summary)

/-! ## Exit codes -/

/-- The exit code is 5 if an index was reported to have failed, and 0 if none was. -/
inductive TellsFailures (reports : List Report) : (code : Nat) → Prop
  | failed
      (pass : Nat) (index : String) (failure : Failure)
      (reported : .failed pass index failure ∈ reports) :
      TellsFailures reports 5
  | none
      (notReported : ∀ pass index failure, .failed pass index failure ∉ reports) :
      TellsFailures reports 0

/-- Counting the failures is enough to tell whether there are any. -/
theorem tellsFailures_exitCodeOf
    {reports : List Report}
    {summary : Summary}
    (counted : summary.failed = reports.countP Report.isFailure) :
    TellsFailures reports (exitCodeOf summary) := by
  unfold exitCodeOf
  by_cases fails : 0 < summary.failed
  · rw [if_pos fails]
    rw [counted] at fails
    obtain ⟨report, reported, isFailure⟩ := List.countP_pos_iff.mp fails
    cases report with
    | computed pass value => cases isFailure
    | finished outcome => cases isFailure
    | failed pass index failure => exact .failed pass index failure reported
  · rw [if_neg fails]
    refine .none fun pass index failure reported => fails ?_
    rw [counted]
    exact List.countP_pos_iff.mpr ⟨_, reported, rfl⟩

/-! ## The command -/

/-- An answer of an execution that is put together comes from answers of its parts. -/
theorem Execution.exists_of_andThen
    {execution : Execution α}
    {next : α → Workspace → Execution β}
    {last : β}
    (returns : (execution.andThen next).result = .ok last) :
    ∃ answer, execution.result = .ok answer ∧
      (next answer execution.workspace).result = .ok last := by
  unfold andThen at returns
  cases result : execution.result with
  | error error =>
      rw [result] at returns
      cases returns
  | ok answer =>
      simp only [result] at returns
      exact ⟨answer, rfl, returns⟩

/-- The command that runs the loop gets ready for its first pass, or it fails. -/
theorem exists_ready_of_start
    {arguments : Arguments}
    {given : RunArguments}
    (task : arguments.task = .run given)
    {surroundings : Surroundings}
    {workspace : Workspace}
    {beginning : Beginning}
    (starts : (start arguments surroundings workspace).result = .ok beginning) :
    ∃ ready, beginning = .ready ready := by
  unfold start at starts
  rw [task] at starts
  obtain ⟨ready, _, isReady⟩ := Execution.exists_of_andThen starts
  cases isReady
  exact ⟨ready, rfl⟩

/-- The course of the passes that a command makes. -/
def courseOf
    (ready : ReadyRun)
    (surroundings : Surroundings)
    (format : Output.Format) : Refresh.Course RunWorld Summary :=
  ready.loop.run (RunWorld.host surroundings.isInterrupted format)
    { phase := .idle, world := .initial ready surroundings.now }

/-- The command that runs the loop returns only if its passes do, and then with an exit code
that says whether an index has failed. -/
theorem exists_course_of_execute
    {arguments : Arguments}
    {given : RunArguments}
    (task : arguments.task = .run given)
    {surroundings : Surroundings}
    {workspace : Workspace}
    {code : Nat}
    (returns : (execute arguments surroundings workspace).result = .ok code) :
    ∃ ready, (start arguments surroundings workspace).result = .ok (.ready ready) ∧
      let course := courseOf ready surroundings (formatOf arguments surroundings.runId)
      (∃ summary, course.result = .ok summary) ∧ TellsFailures course.trace.reports code := by
  obtain ⟨beginning, starts, restReturns⟩ := Execution.exists_of_andThen returns
  obtain ⟨ready, rfl⟩ := exists_ready_of_start task starts
  refine ⟨ready, starts, ?_⟩
  intro course
  change (course.result.mapError ofHalt).map exitCodeOf = .ok code at restReturns
  cases result : course.result with
  | error halt =>
      rw [result] at restReturns
      cases restReturns
  | ok summary =>
      rw [result] at restReturns
      cases restReturns
      have tallies := Loop.tallies_run _ summary result
      exact ⟨⟨summary, rfl⟩,
        tellsFailures_exitCodeOf (tallies.failed.trans (Nat.zero_add _))⟩

/-- Whatever the outside of a loop does: if a run returns, then its counts agree with what it
has reported, and so does the exit code derived from them. The command that runs the loop, if
it returns, has made such a run, wherever the user has interrupted it and whatever its output
takes. -/
theorem counts_agree :
    (∀ (σ : Type) (host : Host σ) (standing : Standing σ) (catalog : Catalog)
        (config : IndexConfig) (schedule : Schedule) (loop : Loop) (summary : Summary),
      Loop.new catalog config schedule = .ok loop →
      (loop.run host standing).result = .ok summary →
        let reports := (loop.run host standing).trace.reports
        AgreesWith schedule.policy catalog.indexes.length reports
          (loop.CutsShort host {} standing) summary ∧
        TellsFailures reports (exitCodeOf summary)) ∧
    (∀ (arguments : Arguments) (given : RunArguments) (surroundings : Surroundings)
        (workspace : Workspace) (code : Nat),
      arguments.task = .run given →
      (execute arguments surroundings workspace).result = .ok code →
        ∃ ready, (start arguments surroundings workspace).result = .ok (.ready ready) ∧
          let course := courseOf ready surroundings (formatOf arguments surroundings.runId)
          (∃ summary, course.result = .ok summary) ∧
          TellsFailures course.trace.reports code) := by
  refine ⟨?run, ?command⟩
  case run =>
    intro σ host standing catalog config schedule loop summary built returns reports
    have agrees := Loop.agreesWith_run built returns
    exact ⟨agrees, tellsFailures_exitCodeOf agrees.failed⟩
  case command =>
    intro arguments given surroundings workspace code task returns
    exact exists_course_of_execute task returns

/-! ## A run that is interrupted -/

/-- A store with one index and one product that has no value. -/
def valuelessStore : Warehouse :=
  (((Warehouse.empty.migrate.replaceSeries "I" ["value"]).insertAttachment "I"
    "@indexes").replaceSeries "A" ["value"]).insertAttachment "A" "@products"

/-- A directory with that store. -/
def valuelessWorkspace : Workspace :=
  ⟨(∅ : Std.ExtTreeMap Path Node).insert ["s"] (.store valuelessStore)⟩

theorem resolve_valuelessWorkspace : valuelessWorkspace.resolve "s" = .ok ["s"] := by
  have accepted : Path.fault? "s" = none := by cbv
  have parts : Path.partsOf "s" = ["s"] := by cbv
  rw [Workspace.resolve, accepted, parts]
  rfl

theorem connect_valuelessWorkspace :
    (connect {} "s" valuelessWorkspace).result = .ok valuelessStore.migrate := by
  let location : Location := ⟨".tickdex", "s", 4⟩
  have named : Location.endpointPath? "s" = some "s" := by decide +kernel
  have located : Location.ofEndpoint {} "s" = .ok location := by
    rw [Location.ofEndpoint, named]
    rfl
  have inFile : location.isInMemory = false := by decide
  have made : valuelessWorkspace.makeDirectories location.path = (.ok (), valuelessWorkspace) := by
    have directory : Path.directoryText "s" = "" := by cbv
    simp [Workspace.makeDirectories, location, directory]
  have found : valuelessWorkspace.tablesAt location = .ok valuelessStore := by
    have node : valuelessWorkspace.node? ["s"] = some (.store valuelessStore) := rfl
    simp only [Workspace.tablesAt, location, resolve_valuelessWorkspace, node]
  simp only [connect, openEndpoint, located, Workspace.openStore, inFile, made,
    Workspace.openFile, found, Warehouse.openAt, Execution.andThen, Except.mapError,
    Bool.false_eq_true, if_false]

/-- Two runs over an index that fails, both interrupted behind the first pass: a rehearsal with an
index without constituents, and the command on a store, which writes to an output of limited
size. -/
theorem counts_agree_sample :
    let catalog := Catalog.ofGroups [(Tag.indexes, ["I"])]
    let schedule : Schedule := { maxPasses := some 2 }
    let host := Refresh.Rehearsal.host Refresh.Rehearsal.Backend.memory
      { hooks := [{ position := 2, raises := true }] }
    let start : Timestamp := ⟨1772452800000000000, 0, by decide⟩
    let standing : Standing (Refresh.Rehearsal.World MemoryStore) :=
      ⟨.idle, { store := .empty, clock := .startingAt start }⟩
    let arguments : Arguments := { store := some "s", format := .ndjson, task := .run {} }
    let surroundings : Surroundings :=
      { environment := {}
        now := start
        runId := ⟨0⟩
        seed := 0
        output := .limited 1000
        isInterrupted := fun moment world => moment = .beforeSleep && 0 < world.asked }
    (∃ loop, Loop.new catalog IndexConfig.empty schedule = .ok loop ∧
      (loop.run host standing).result =
        .ok { passes := 1, computed := 0, failed := 1, cancelled := true } ∧
      TellsFailures (loop.run host standing).trace.reports 5) ∧
    (execute arguments surroundings valuelessWorkspace).result = .ok 5 ∧
    ∃ ready, (Command.start arguments surroundings valuelessWorkspace).result =
        .ok (.ready ready) ∧
      TellsFailures (courseOf ready surroundings (.records ⟨0⟩)).trace.reports 5 := by
  intro catalog schedule host start standing arguments surroundings
  have built : Loop.new catalog IndexConfig.empty schedule =
      .ok ⟨Aggregator.new Divisors.default catalog, Loop.plansOf IndexConfig.empty catalog,
        schedule⟩ := by
    rfl
  obtain ⟨_, tells⟩ := counts_agree.1 _ host standing catalog IndexConfig.empty schedule _
    { passes := 1, computed := 0, failed := 1, cancelled := true } built rfl
  have returns : (execute arguments surroundings valuelessWorkspace).result = .ok 5 := by
    have settings : settingsOf {} valuelessWorkspace = .ok (IndexConfig.empty, {}) := rfl
    have answered :
        (execute arguments surroundings valuelessWorkspace).result.toOption = some 5 := by
      simp only [execute, Command.start, prepareRun, Execution.ofResult, settings,
        Execution.andThen, endpointOf, Option.getD_some, arguments, surroundings,
        connect_valuelessWorkspace]
      decide +kernel
    cases result : (execute arguments surroundings valuelessWorkspace).result with
    | error error =>
        rw [result] at answered
        cases answered
    | ok code =>
        rw [result] at answered
        cases answered
        rfl
  obtain ⟨ready, starts, _, alsoTells⟩ :=
    counts_agree.2 arguments {} surroundings valuelessWorkspace 5 rfl returns
  exact ⟨⟨_, built, rfl, tells⟩, returns, ready, starts, alsoTells⟩

end Command
end CompositeIndex
