import Mathlib
import CompositeIndex.Command.Execution
import CompositeIndex.Proofs.Catalog.Discovery
import CompositeIndex.Proofs.Index.EffectiveDivisor

/-!
# The settings of a run

A run is told a file, overrides, an interval and a few choices that cannot be wrong. The first
mistake in them ends the command before the store is opened, whatever is in the store and
wherever it lies. Without a mistake the loop can be built for any catalog, so that whatever goes
wrong from then on is not about the settings.
-/

namespace CompositeIndex
namespace Command

open DivisorOverride (Written)
open IndexConfig (FileContent)
open Refresh (Halt Host Loop Schedule Standing)

/-! ## Mistakes -/

/-- What a run is told about the indexes in its file, if it has one. -/
inductive Loads (given : RunArguments) (read : String → FileContent) : IndexConfig → Prop
  | nothing
      (notNamed : given.config = none) :
      Loads given read IndexConfig.empty
  | file
      {name content : String} {config : IndexConfig}
      (isNamed : given.config = some name)
      (isText : read name = .text content)
      (parsed : IndexConfig.ofJson content = .ok config) :
      Loads given read config

/-- The configuration that a run ends up with: that of its file, with all overrides, if every
divisor in it is positive and finite. -/
structure Configures
    (given : RunArguments)
    (read : String → FileContent)
    (final : IndexConfig) : Prop where
  origin : ∃ config overrides, Loads given read config ∧
    List.Forall₂ Written given.divisors overrides ∧ config.Overridden overrides final
  isValid : final.IsValid

/-- Why a number of seconds is no interval. -/
inductive BadInterval (seconds : Nat) : Invalid → Prop
  | short (isShort : seconds < 1) : BadInterval seconds .shortInterval
  | long (isLong : 2 ^ 63 ≤ seconds) : BadInterval seconds (.longInterval seconds)

/-- The first mistake in the settings: the file comes before the overrides, these come before
the divisors, and the interval is last. -/
inductive Mistake (given : RunArguments) (read : String → FileContent) : CommandError → Prop
  | unreadable
      {name reason : String}
      (isNamed : given.config = some name)
      (fails : read name = .unreadable reason) :
      Mistake given read (.failure (.configuration ("cannot read " ++ name ++ ": " ++ reason)))
  | misread
      {name content : String} {fault : Json.Fault}
      (isNamed : given.config = some name)
      (isText : read name = .text content)
      (fails : IndexConfig.ofJson content = .error fault) :
      Mistake given read
        (.failure (.configuration (name ++ ": " ++ fault.message content.toList)))
  | override
      {config : IndexConfig} {before after : List String} {raw : String}
      (loads : Loads given read config)
      (split : given.divisors = before ++ raw :: after)
      (wellFormed : ∀ earlier ∈ before, ∃ override, Written earlier override)
      (malformed : ∀ override, ¬Written raw override) :
      Mistake given read (.invalid (.malformedDivisor raw))
  | divisor
      {config final : IndexConfig} {overrides : List DivisorOverride} {failure : Failure}
      (loads : Loads given read config)
      (written : List.Forall₂ Written given.divisors overrides)
      (overridden : config.Overridden overrides final)
      (blames : final.Blames failure) :
      Mistake given read (.failure failure)
  | interval
      {final : IndexConfig} {invalid : Invalid}
      (configures : Configures given read final)
      (bad : BadInterval given.interval invalid) :
      Mistake given read (.invalid invalid)

/-- The error is about settings: a value is refused, or the code of the failure says so. -/
def CommandError.IsAboutSettings : CommandError → Prop
  | .invalid _ => True
  | .failure cause => cause.code ∈ ["validation", "config.invalid", "config.invalid_divisor"]
  | _ => False

/-! ## Finding a mistake -/

/-- The configuration of the file, if there is one. -/
def loadConfig
    (given : RunArguments)
    (read : String → FileContent) : Except CommandError IndexConfig :=
  match given.config with
  | none => .ok IndexConfig.empty
  | some name => (IndexConfig.ofFile name (read name)).mapError .failure

theorem configOf_eq (given : RunArguments) (workspace : Workspace) :
    configOf given workspace =
      (loadConfig given workspace.readText).bind fun config =>
        ((config.overrideAll given.divisors).mapError .invalid).bind fun final =>
          (final.validDivisors.mapError .failure).map fun _ => final := by
  unfold configOf loadConfig
  cases given.config with
  | none => rfl
  | some name => rfl

theorem settingsOf_eq (given : RunArguments) (workspace : Workspace) :
    settingsOf given workspace =
      (configOf given workspace).bind fun config =>
        (scheduleOf given).map fun schedule => (config, schedule) := by
  unfold settingsOf
  cases configOf given workspace with
  | error error => rfl
  | ok config => cases scheduleOf given <;> rfl

section

variable {given : RunArguments} {read : String → FileContent} {workspace : Workspace}

theorem Loads.loadConfig_eq
    {config : IndexConfig}
    (loads : Loads given read config) :
    loadConfig given read = .ok config := by
  cases loads with
  | nothing notNamed => rw [loadConfig, notNamed]
  | file isNamed isText parsed =>
      simp only [loadConfig, isNamed, isText, IndexConfig.ofFile, parsed, Except.mapError]

theorem Configures.configOf_eq
    {final : IndexConfig}
    (configures : Configures given workspace.readText final) :
    ∃ divisors, final.validDivisors = .ok divisors ∧ configOf given workspace = .ok final := by
  obtain ⟨⟨config, overrides, loads, written, overridden⟩, isValid⟩ := configures
  obtain ⟨other, applied, alsoOverridden⟩ := IndexConfig.exists_overrideAll written config
  cases alsoOverridden.unique overridden
  rcases final.validDivisors_cases with ⟨divisors, checked, _⟩ | ⟨failure, _, blames⟩
  · refine ⟨divisors, checked, ?_⟩
    rw [Command.configOf_eq, loads.loadConfig_eq]
    simp only [Except.bind, applied, Except.mapError, checked, Except.map]
  · exact absurd isValid blames.not_isValid

/-- An interval has at least one second, and no more than a duration can hold. -/
theorem scheduleOf_cases (given : RunArguments) :
    (∃ schedule, scheduleOf given = .ok schedule ∧ schedule.validate = .ok () ∧
      ∀ invalid, ¬BadInterval given.interval invalid) ∨
    ∃ invalid, scheduleOf given = .error (.invalid invalid) ∧
      BadInterval given.interval invalid := by
  have limit : Schedule.secondsLimit = 2 ^ 63 - 1 := rfl
  by_cases isLong : Schedule.secondsLimit < given.interval
  · refine .inr ⟨_, ?_, .long (by omega)⟩
    simp only [scheduleOf, Schedule.withIntervalSeconds, if_pos isLong, Except.mapError]
  · let schedule : Schedule :=
      { interval := Duration.ofSeconds given.interval
        policy := given.policy
        reportEach := !given.hideProducts
        maxPasses := given.passes }
    have changed : scheduleOf given =
        (schedule.validate.map fun _ => schedule).mapError .invalid := by
      simp only [scheduleOf, Schedule.withIntervalSeconds, if_neg isLong]
      rfl
    by_cases isShort : given.interval < 1
    · refine .inr ⟨_, ?_, .short isShort⟩
      have refused : schedule.validate = .error .shortInterval := by
        refine if_pos ?_
        simp only [schedule, Duration.ofSeconds, nanosPerSecond]
        omega
      rw [changed, refused]
      rfl
    · have accepted : schedule.validate = .ok () := by
        refine (if_neg ?_).trans rfl
        simp only [schedule, Duration.ofSeconds, nanosPerSecond]
        omega
      refine .inl ⟨schedule, ?_, accepted, ?_⟩
      · rw [changed, accepted]
        rfl
      · rintro _ (⟨short⟩ | ⟨long⟩)
        · exact isShort short
        · omega

theorem BadInterval.unique
    {seconds : Nat}
    {first second : Invalid}
    (isFirst : BadInterval seconds first)
    (isSecond : BadInterval seconds second) :
    first = second := by
  cases isFirst <;> cases isSecond <;> first | rfl | omega

/-- The first mistake is what is answered. -/
theorem Mistake.settingsOf_eq
    {error : CommandError}
    (mistake : Mistake given workspace.readText error) :
    settingsOf given workspace = .error error := by
  rw [Command.settingsOf_eq]
  cases mistake with
  | unreadable isNamed fails =>
      simp only [Command.configOf_eq, loadConfig, isNamed, fails, IndexConfig.ofFile,
        Except.mapError, Except.bind]
  | misread isNamed isText fails =>
      simp only [Command.configOf_eq, loadConfig, isNamed, isText, IndexConfig.ofFile, fails,
        Except.mapError, Except.bind]
  | @override config _ after _ loads split wellFormed malformed =>
      have refused := IndexConfig.overrideAll_eq_error wellFormed malformed after config
      rw [← split] at refused
      simp only [Command.configOf_eq, loads.loadConfig_eq, refused, Except.mapError, Except.bind]
  | @divisor config final overrides failure loads written overridden blames =>
      obtain ⟨other, applied, alsoOverridden⟩ := IndexConfig.exists_overrideAll written config
      cases alsoOverridden.unique overridden
      have refused := (IndexConfig.validDivisors_eq_error_iff failure).mpr blames
      simp only [Command.configOf_eq, loads.loadConfig_eq, applied, refused, Except.mapError,
        Except.bind, Except.map]
  | interval configures bad =>
      obtain ⟨_, _, configured⟩ := configures.configOf_eq
      rcases scheduleOf_cases given with ⟨_, _, _, good⟩ | ⟨_, refused, alsoBad⟩
      · exact absurd bad (good _)
      · rw [configured, refused, alsoBad.unique bad]
        rfl

/-- The file is read, or it is the mistake. -/
theorem exists_loads_or_mistake (given : RunArguments) (read : String → FileContent) :
    (∃ config, Loads given read config) ∨ ∃ error, Mistake given read error := by
  cases isNamed : given.config with
  | none => exact .inl ⟨_, .nothing isNamed⟩
  | some name =>
      cases isRead : read name with
      | unreadable reason => exact .inr ⟨_, .unreadable isNamed isRead⟩
      | text content =>
          cases parsed : IndexConfig.ofJson content with
          | error fault => exact .inr ⟨_, .misread isNamed isRead parsed⟩
          | ok config => exact .inl ⟨config, .file isNamed isRead parsed⟩

/-- The settings put together a configuration and a schedule, or there is a mistake in them. -/
theorem exists_configures_or_mistake (given : RunArguments) (read : String → FileContent) :
    (∃ final, Configures given read final ∧ ∀ invalid, ¬BadInterval given.interval invalid) ∨
    ∃ error, Mistake given read error := by
  rcases exists_loads_or_mistake given read with ⟨config, loads⟩ | mistaken
  · rcases config.overrideAll_cases given.divisors with
      ⟨overrides, final, written, applied, overridden⟩ |
      ⟨before, raw, after, split, wellFormed, malformed, _⟩
    · rcases final.validDivisors_cases with ⟨_, _, isValid, _⟩ | ⟨failure, _, blames⟩
      · have configures : Configures given read final :=
          ⟨⟨config, overrides, loads, written, overridden⟩, isValid⟩
        rcases scheduleOf_cases given with ⟨_, _, _, good⟩ | ⟨_, _, bad⟩
        · exact .inl ⟨final, configures, good⟩
        · exact .inr ⟨_, .interval configures bad⟩
      · exact .inr ⟨_, .divisor loads written overridden blames⟩
    · exact .inr ⟨_, .override loads split wellFormed malformed⟩
  · exact .inr mistaken

/-- Only the file of the configuration matters. -/
theorem Loads.congr
    {other : String → FileContent}
    (same : ∀ name, given.config = some name → read name = other name)
    {config : IndexConfig}
    (loads : Loads given read config) :
    Loads given other config := by
  cases loads with
  | nothing notNamed => exact .nothing notNamed
  | file isNamed isText parsed => exact .file isNamed ((same _ isNamed).symm.trans isText) parsed

theorem Mistake.congr
    {other : String → FileContent}
    (same : ∀ name, given.config = some name → read name = other name)
    {error : CommandError}
    (mistake : Mistake given read error) :
    Mistake given other error := by
  cases mistake with
  | unreadable isNamed fails => exact .unreadable isNamed ((same _ isNamed).symm.trans fails)
  | misread isNamed isText fails =>
      exact .misread isNamed ((same _ isNamed).symm.trans isText) fails
  | override loads split wellFormed malformed =>
      exact .override (loads.congr same) split wellFormed malformed
  | divisor loads written overridden blames =>
      exact .divisor (loads.congr same) written overridden blames
  | interval configures bad =>
      obtain ⟨⟨config, overrides, loads, written, overridden⟩, isValid⟩ := configures
      exact .interval ⟨⟨config, overrides, loads.congr same, written, overridden⟩, isValid⟩ bad

/-- A mistake ends the command before it has done anything. -/
theorem Mistake.execute_eq
    {error : CommandError}
    (mistake : Mistake given workspace.readText error)
    {arguments : Arguments}
    (task : arguments.task = .run given)
    (surroundings : Surroundings) :
    execute arguments surroundings workspace =
      { result := .error error, workspace
        log := [opening (endpointOf arguments surroundings.environment)] } := by
  simp only [execute, start, task, prepareRun, mistake.settingsOf_eq, Execution.ofResult,
    Execution.andThen]

end

/-! ## What can still go wrong -/

/-- The error comes from the store or from the output. -/
inductive CommandError.ComesFromOutside : CommandError → Prop
  | opening (cause : StoreError) : ComesFromOutside (.store cause)
  | reading (cause : StoreError) : ComesFromOutside (.failure (.ofStore cause))
  | writing (problem : String) : ComesFromOutside (.failure (.output problem))
  | showing (problem : String) : ComesFromOutside (.output problem)

theorem CommandError.ComesFromOutside.not_isAboutSettings
    {error : CommandError}
    (outside : error.ComesFromOutside) :
    ¬error.IsAboutSettings := by
  cases outside with
  | opening cause => exact id
  | reading cause => cases cause <;> simp [IsAboutSettings, Failure.ofStore, Failure.code]
  | writing problem => simp [IsAboutSettings, Failure.code]
  | showing problem => exact id

theorem ofHalt_comesFromOutside (halt : Halt) : (ofHalt halt).ComesFromOutside := by
  cases halt <;> exact .writing _

namespace Execution

/-- If the execution fails, then for reasons outside the settings. -/
def IsSettled (execution : Execution α) : Prop :=
  ∀ error, execution.result = .error error → error.ComesFromOutside

theorem isSettled_of_ok
    {execution : Execution α}
    {answer : α}
    (succeeds : execution.result = .ok answer) :
    execution.IsSettled := by
  intro error fails
  rw [succeeds] at fails
  cases fails

theorem IsSettled.andThen
    {execution : Execution α}
    {next : α → Workspace → Execution β}
    (settled : execution.IsSettled)
    (rest : ∀ answer, execution.result = .ok answer →
      ∀ workspace, (next answer workspace).IsSettled) :
    (execution.andThen next).IsSettled := by
  intro error fails
  unfold Execution.andThen at fails
  cases result : execution.result with
  | error cause =>
      rw [result] at fails
      cases fails
      exact settled _ result
  | ok answer =>
      rw [result] at fails
      exact rest answer result execution.workspace error fails

end Execution

theorem isSettled_connect (environment : Environment) (endpoint : String) (workspace : Workspace) :
    (connect environment endpoint workspace).IsSettled := by
  refine .andThen ?opened fun _ _ _ => Execution.isSettled_of_ok rfl
  intro error fails
  dsimp only at fails
  unfold openEndpoint at fails
  cases located : Location.ofEndpoint environment endpoint with
  | error cause =>
      rw [located] at fails
      cases fails
      exact .opening _
  | ok location =>
      simp only [located] at fails
      split at fails
      · cases fails
        exact .opening _
      · cases fails

theorem isSettled_discover (tables : Warehouse) (workspace : Workspace) :
    (discover tables workspace).IsSettled := by
  intro error fails
  change (Catalog.discover tables.reader).result.mapError .failure = .error error at fails
  rcases Catalog.isDiscoverable_or_exists_obstructs tables.reader with
    discoverable | ⟨cause, obstructs⟩
  · obtain ⟨names, registers⟩ := discoverable.tags
    obtain ⟨catalog, discovered, _⟩ := Catalog.exists_result_discover discoverable registers
    rw [discovered] at fails
    cases fails
  · rw [Catalog.result_discover_of_obstructs obstructs] at fails
    cases fails
    exact .reading cause

theorem isSettled_write
    (format : Output.Format)
    (event : Output.Event)
    (sink : Output.Sink)
    (workspace : Workspace) :
    (write format event sink workspace).IsSettled := by
  intro error fails
  unfold write at fails
  cases written : sink.write? (format.render event) with
  | some sink =>
      rw [written] at fails
      cases fails
  | none =>
      rw [written] at fails
      cases fails
      exact .showing _

theorem isSettled_finishRun
    (ready : ReadyRun)
    (surroundings : Surroundings)
    (format : Output.Format)
    (workspace : Workspace) :
    (finishRun ready surroundings format workspace).IsSettled := by
  intro error fails
  unfold finishRun at fails
  dsimp only at fails
  generalize (ready.loop.run _ _).result = result at fails
  cases result with
  | error halt =>
      cases fails
      exact ofHalt_comesFromOutside halt
  | ok summary => cases fails

/-- With these settings the loop can be built for any catalog. -/
theorem exists_loop
    {config : IndexConfig} {schedule : Schedule} {divisors : Divisors}
    (accepted : schedule.validate = .ok ())
    (checked : config.validDivisors = .ok divisors)
    (catalog : Catalog) :
    ∃ loop, Loop.new catalog config schedule = .ok loop := by
  refine ⟨⟨Aggregator.new divisors catalog, Loop.plansOf config catalog, schedule⟩, ?_⟩
  rw [Loop.new, accepted, checked]
  rfl

theorem isSettled_buildLoop
    {config : IndexConfig} {schedule : Schedule} {catalog : Catalog}
    (builds : ∃ loop, Loop.new catalog config schedule = .ok loop)
    (workspace : Workspace) :
    (buildLoop catalog config schedule workspace).IsSettled := by
  obtain ⟨loop, built⟩ := builds
  have succeeds : (buildLoop catalog config schedule workspace).result = .ok loop := by
    rw [buildLoop, built]
  exact Execution.isSettled_of_ok succeeds

theorem isSettled_prepareRun
    {given : RunArguments} {config : IndexConfig} {schedule : Schedule} {workspace : Workspace}
    (settings : settingsOf given workspace = .ok (config, schedule))
    (builds : ∀ catalog, ∃ loop, Loop.new catalog config schedule = .ok loop)
    (surroundings : Surroundings)
    (endpoint : String)
    (format : Output.Format) :
    (prepareRun given surroundings endpoint format workspace).IsSettled := by
  refine .andThen (Execution.isSettled_of_ok settings) fun answer isAnswer workspace => ?_
  cases settings.symm.trans isAnswer
  -- the settings are behind us: the steps that can still fail ask the store
  refine .andThen (isSettled_connect _ endpoint workspace) fun tables _ workspace => ?_
  refine .andThen (isSettled_discover tables workspace) fun catalog _ workspace => ?_
  refine .andThen ?shown fun _ _ workspace => ?_
  case shown =>
    cases format with
    | console => exact isSettled_write .console _ _ workspace
    | records runId => exact Execution.isSettled_of_ok rfl
  exact .andThen (isSettled_buildLoop (builds catalog) workspace)
    fun _ _ _ => Execution.isSettled_of_ok rfl

theorem isSettled_execute
    {given : RunArguments} {config : IndexConfig} {schedule : Schedule} {workspace : Workspace}
    (settings : settingsOf given workspace = .ok (config, schedule))
    (builds : ∀ catalog, ∃ loop, Loop.new catalog config schedule = .ok loop)
    {arguments : Arguments}
    (task : arguments.task = .run given)
    (surroundings : Surroundings) :
    (execute arguments surroundings workspace).IsSettled := by
  refine .andThen ?prepared fun beginning _ workspace => ?passes
  case prepared =>
    intro error fails
    unfold start at fails
    rw [task] at fails
    have prepared := isSettled_prepareRun settings builds surroundings
      (endpointOf arguments surroundings.environment) (formatOf arguments surroundings.runId)
    exact prepared.andThen (fun _ _ _ => Execution.isSettled_of_ok rfl) error fails
  case passes =>
    match beginning with
    | .over code => exact Execution.isSettled_of_ok rfl
    | .ready run => exact isSettled_finishRun run surroundings _ workspace

/-- The first mistake in the settings ends the command before it has done anything, whatever the
store and its endpoint are. Without one, the loop can be built for every catalog, and neither
the command nor any other outside of the loop ends with an error about settings. -/
theorem mistakes_precede_store (given : RunArguments) :
    (∀ (arguments : Arguments) (surroundings : Surroundings) (workspace : Workspace)
        (error : CommandError),
      arguments.task = .run given → Mistake given workspace.readText error →
        execute arguments surroundings workspace =
          { result := .error error, workspace, output := ""
            log := [opening (endpointOf arguments surroundings.environment)] }) ∧
    (∀ (arguments others : Arguments) (here there : Surroundings) (workspace other : Workspace)
        (error : CommandError),
      arguments.task = .run given → others.task = .run given →
      (∀ name, given.config = some name → workspace.readText name = other.readText name) →
      Mistake given workspace.readText error →
        (execute arguments here workspace).result = .error error ∧
        (execute others there other).result = .error error) ∧
    (∀ workspace : Workspace, (∀ error, ¬Mistake given workspace.readText error) →
      ∃ config schedule, settingsOf given workspace = .ok (config, schedule) ∧
        Configures given workspace.readText config ∧
        (∀ catalog, ∃ loop, Loop.new catalog config schedule = .ok loop ∧
          ∀ (σ : Type) (host : Host σ) (standing : Standing σ) (halt : Halt),
            (loop.run host standing).result = .error halt → ¬(ofHalt halt).IsAboutSettings) ∧
        ∀ (arguments : Arguments) (surroundings : Surroundings) (error : CommandError),
          arguments.task = .run given →
          (execute arguments surroundings workspace).result = .error error →
            ¬error.IsAboutSettings) := by
  refine ⟨?refused, ?anywhere, ?accepted⟩
  case refused =>
    intro arguments surroundings workspace error task mistake
    exact mistake.execute_eq task surroundings
  case anywhere =>
    intro arguments others here there workspace other error task otherTask same mistake
    have alsoMistake := mistake.congr same
    rw [mistake.execute_eq task here, alsoMistake.execute_eq otherTask there]
    exact ⟨rfl, rfl⟩
  case accepted =>
    intro workspace noMistake
    rcases exists_configures_or_mistake given workspace.readText with
      ⟨config, configures, goodInterval⟩ | ⟨error, mistake⟩
    case inr => exact absurd mistake (noMistake error)
    obtain ⟨divisors, checked, configured⟩ := configures.configOf_eq
    rcases scheduleOf_cases given with ⟨schedule, scheduled, accepted, _⟩ | ⟨_, _, bad⟩
    case inr => exact absurd bad (goodInterval _)
    have settings : settingsOf given workspace = .ok (config, schedule) := by
      rw [settingsOf_eq, configured, scheduled]
      rfl
    have builds := exists_loop accepted checked
    refine ⟨config, schedule, settings, configures, fun catalog => ?loop, ?command⟩
    case loop =>
      obtain ⟨loop, built⟩ := builds catalog
      exact ⟨loop, built, fun _ _ _ halt _ => (ofHalt_comesFromOutside halt).not_isAboutSettings⟩
    case command =>
      intro arguments surroundings error task fails
      exact (isSettled_execute settings builds task surroundings error fails).not_isAboutSettings

/-- A missing file, beside an override and an interval that are wrong as well, for a store that
has no name; and a run that is told nothing. -/
theorem mistakes_precede_store_sample :
    let wrong : RunArguments := { config := some "c", divisors := ["A"], interval := 0 }
    let error : CommandError :=
      .failure (.configuration ("cannot read c: " ++ FileFault.notFound.message))
    let surroundings : Surroundings :=
      { environment := {}
        now := ⟨1772452800000000000, 0, by decide⟩
        runId := .ofRandom 0
        seed := 0 }
    (execute { task := .run wrong } surroundings Workspace.empty).result = .error error ∧
    (execute { store := some "ftp://x", task := .run wrong } surroundings
      Workspace.empty).result = .error error ∧
    ∃ config schedule, settingsOf {} Workspace.empty = .ok (config, schedule) ∧
      ∃ loop, Loop.new Catalog.empty config schedule = .ok loop := by
  intro wrong error surroundings
  have isMissing :
      Workspace.empty.readText "c" = .unreadable FileFault.notFound.message := by
    cbv
  have mistake : Mistake wrong Workspace.empty.readText error := .unreadable rfl isMissing
  obtain ⟨fails, alsoFails⟩ := (mistakes_precede_store wrong).2.1
    { task := .run wrong } { store := some "ftp://x", task := .run wrong } surroundings
    surroundings Workspace.empty Workspace.empty error rfl rfl (fun _ _ => rfl) mistake
  have inOrder : ∀ error, ¬Mistake {} Workspace.empty.readText error := by
    intro error mistake
    cases mistake.settingsOf_eq
  obtain ⟨config, schedule, settings, _, builds, _⟩ :=
    (mistakes_precede_store {}).2.2 Workspace.empty inOrder
  obtain ⟨loop, built, _⟩ := builds Catalog.empty
  exact ⟨fails, alsoFails, config, schedule, settings, loop, built⟩

end Command
end CompositeIndex
