import CompositeIndex.Refresh.Loop
import CompositeIndex.Refresh.Rehearsal

/-!
# Runs that nothing disturbs

An outside is steady if the flag stays down, every report is taken, the store stays the same
and nothing but sleeping moves the clock. It has to be so in calm worlds only, which a run
never leaves. On a steady outside every part of a run has an answer, hands over certain
reports and leaves the clock at a certain time; `Yields` says which. What a part yields
follows from what its own parts yield.
-/

namespace CompositeIndex
namespace Refresh

/-- As long as the world is calm, nothing disturbs a run. -/
structure Host.IsSteady
    (host : Host σ)
    (reader : Reader)
    (clock : σ → ManualClock)
    (calm : σ → Prop) : Prop where
  now : ∀ world, calm world → host.now world = (clock world).now
  reader : ∀ world, calm world → host.reader world = reader
  lowered : ∀ moment world, calm world → host.isRaised moment world = false
  ask : ∀ query world, calm world →
    calm (host.ask query world) ∧ clock (host.ask query world) = clock world
  taken : ∀ report world, calm world → (host.report report world).result = .ok ()
  report : ∀ report world, calm world →
    calm (host.report report world).world ∧
      clock (host.report report world).world = clock world
  fallAsleep : ∀ duration world, calm world →
    calm (host.fallAsleep duration world) ∧
      clock (host.fallAsleep duration world) = (clock world).fallAsleep duration
  wake : ∀ duration world later, calm world →
    (clock world).advance? duration = some later →
      ∃ awake, host.wake duration world = some awake ∧ calm awake ∧ clock awake = later

/-- The world is calm and its clock shows this. -/
structure Shows
    (clock : σ → ManualClock)
    (calm : σ → Prop)
    (time : ManualClock)
    (world : σ) : Prop where
  isCalm : calm world
  clock_eq : clock world = time

section

variable {host : Host σ} {reader : Reader} {clock : σ → ManualClock} {calm : σ → Prop}
variable {time : ManualClock} {world : σ}

namespace Host.IsSteady

theorem shows_ask
    (steady : host.IsSteady reader clock calm)
    (query : Query)
    (shows : Shows clock calm time world) :
    Shows clock calm time (host.ask query world) :=
  ⟨(steady.ask query world shows.isCalm).1,
    (steady.ask query world shows.isCalm).2.trans shows.clock_eq⟩

theorem shows_report
    (steady : host.IsSteady reader clock calm)
    (report : Report)
    (shows : Shows clock calm time world) :
    Shows clock calm time (host.report report world).world :=
  ⟨(steady.report report world shows.isCalm).1,
    (steady.report report world shows.isCalm).2.trans shows.clock_eq⟩

theorem shows_fallAsleep
    (steady : host.IsSteady reader clock calm)
    (duration : Duration)
    (shows : Shows clock calm time world) :
    Shows clock calm (time.fallAsleep duration) (host.fallAsleep duration world) := by
  obtain ⟨isCalm, rfl⟩ := shows
  exact ⟨(steady.fallAsleep duration world isCalm).1,
    (steady.fallAsleep duration world isCalm).2⟩

/-- A sleep ends if the clock can be moved by its duration. -/
theorem exists_wake
    (steady : host.IsSteady reader clock calm)
    {duration : Duration}
    {later : ManualClock}
    (advances : time.advance? duration = some later)
    (shows : Shows clock calm time world) :
    ∃ awake, host.wake duration world = some awake ∧ Shows clock calm later awake := by
  obtain ⟨isCalm, rfl⟩ := shows
  obtain ⟨awake, wakes, awakeCalm, awakeClock⟩ :=
    steady.wake duration world later isCalm advances
  exact ⟨awake, wakes, awakeCalm, awakeClock⟩

end Host.IsSteady

/-- The part of a run has this answer, hands over these reports, and leaves a calm world
with this clock. -/
structure Yields
    (clock : σ → ManualClock)
    (calm : σ → Prop)
    (course : Course σ α)
    (answer : α)
    (reports : List Report)
    (time : ManualClock) : Prop where
  result : course.result = .ok answer
  reports : course.trace.reports = reports
  shows : Shows clock calm time course.standing.world

/-! ## Parts of a course -/

namespace Yields

variable {standing : Standing σ}

theorem pure (answer : α) (shows : Shows clock calm time standing.world) :
    Yields clock calm (.pure answer standing) answer [] time :=
  ⟨rfl, rfl, shows⟩

theorem note
    {activity : Activity}
    (silent : activity.report? = none)
    (shows : Shows clock calm time standing.world) :
    Yields clock calm (.note activity standing) () [] time where
  result := rfl
  reports := by
    rw [Course.note, Trace.reports, List.filterMap_cons_none silent, List.filterMap_nil]
  shows := shows

theorem enter (phase : Phase) (shows : Shows clock calm time standing.world) :
    Yields clock calm (.enter phase standing) () [] time :=
  ⟨rfl, rfl, shows⟩

theorem report
    (steady : host.IsSteady reader clock calm)
    (report : Report)
    (shows : Shows clock calm time standing.world) :
    Yields clock calm (.report host report standing) () [report] time :=
  ⟨steady.taken report _ shows.isCalm, rfl, steady.shows_report report shows⟩

/-- Of two parts the second starts where the first has ended. -/
theorem andThen
    {course : Course σ α}
    {next : α → Standing σ → Course σ β}
    {answer : α}
    {last : β}
    {reports more : List Report}
    {later : ManualClock}
    (first : Yields clock calm course answer reports time)
    (second : ∀ standing, Shows clock calm time standing.world →
      Yields clock calm (next answer standing) last more later) :
    Yields clock calm (course.andThen next) last (reports ++ more) later := by
  have rest := second course.standing first.shows
  unfold Course.andThen
  rw [first.result]
  refine ⟨rest.result, ?_, rest.shows⟩
  rw [Trace.reports, List.filterMap_append, ← first.reports, ← rest.reports]
  rfl

/-- What follows a part without reports has the reports to itself. -/
theorem andThen_silent
    {course : Course σ α}
    {next : α → Standing σ → Course σ β}
    {answer : α}
    {last : β}
    {more : List Report}
    {later : ManualClock}
    (first : Yields clock calm course answer [] time)
    (second : ∀ standing, Shows clock calm time standing.world →
      Yields clock calm (next answer standing) last more later) :
    Yields clock calm (course.andThen next) last more later :=
  first.andThen second

/-- What precedes a part without reports has the reports to itself. -/
theorem andThen_of_silent
    {course : Course σ α}
    {next : α → Standing σ → Course σ β}
    {answer : α}
    {last : β}
    {reports : List Report}
    {later : ManualClock}
    (first : Yields clock calm course answer reports time)
    (second : ∀ standing, Shows clock calm time standing.world →
      Yields clock calm (next answer standing) last [] later) :
    Yields clock calm (course.andThen next) last reports later := by
  rw [← List.append_nil reports]
  exact first.andThen second

end Yields

/-! ## One index -/

namespace Report

/-- The report of the result of an index. -/
def ofResult (pass : Nat) (index : String) : Except Failure IndexValue → Report
  | .ok value => .computed pass value
  | .error failure => .failed pass index failure

/-- The report is that of an index that failed. -/
def isFailure : Report → Bool
  | .failed _ _ _ => true
  | _ => false

end Report

namespace Loop

variable {standing : Standing σ}

/-- How the work on an index ends with a result. -/
def planEndOf : Except Failure IndexValue → PlanEnd
  | .ok _ => .computed
  | .error _ => .failed

/-- Nobody gives up waiting. -/
theorem yields_await
    (steady : host.IsSteady reader clock calm)
    (readings : List Reading)
    (shows : Shows clock calm time standing.world) :
    Yields clock calm (await host readings standing) false [] time := by
  induction readings generalizing standing with
  | nil => exact .pure false shows
  | cons reading readings inductionHypothesis =>
      rw [await]
      refine .andThen_silent (.note rfl (steady.shows_ask _ shows)) fun standing shows => ?_
      rw [if_neg (by simp [steady.lowered _ _ shows.isCalm])]
      exact .andThen_silent (.note rfl shows) fun standing shows => inductionHypothesis shows

theorem yields_conclude
    (steady : host.IsSteady reader clock calm)
    (pass : Nat)
    (index : String)
    (result : Except Failure IndexValue)
    (shows : Shows clock calm time standing.world) :
    Yields clock calm (conclude host pass index result standing) (planEndOf result)
      [Report.ofResult pass index result] time := by
  cases result with
  | ok value =>
      rw [conclude]
      exact .andThen (.report steady _ shows) fun standing shows => .pure _ shows
  | error failure =>
      rw [conclude]
      refine .andThen_silent (.note rfl shows) fun standing shows => ?_
      exact .andThen (.report steady _ shows) fun standing shows => .pure _ shows

/-- The work on an index ends with the report of its result in the window of the moment. -/
theorem yields_runPlan
    (loop : Loop)
    (steady : host.IsSteady reader clock calm)
    (pass : Nat)
    (plan : Plan)
    {window : Window}
    (inRange : Window.trailing? time.now loop.schedule.span = some window)
    (shows : Shows clock calm time standing.world) :
    let result := (loop.aggregator.compute reader plan.index plan.constituents window
      loop.schedule.reportEach).result
    Yields clock calm (loop.runPlan host pass plan standing) (planEndOf result)
      [Report.ofResult pass plan.index result] time := by
  rw [runPlan, if_neg (by simp [steady.lowered _ _ shows.isCalm])]
  refine .andThen_silent (.enter _ shows) fun standing shows => ?_
  rw [steady.now _ shows.isCalm, shows.clock_eq, inRange]
  change Yields clock calm (loop.computePlan host pass plan window standing) _ _ _
  rw [computePlan, if_neg (by simp [steady.lowered _ _ shows.isCalm]),
    steady.reader _ shows.isCalm]
  refine .andThen_silent (yields_await steady _ shows) fun standing shows => ?_
  exact yields_conclude steady pass plan.index _ shows

end Loop

end

/-! ## Rehearsals without events -/

namespace Rehearsal

/-- Nothing happens at a report, during a question or during a sleep. -/
def Script.IsQuiet (script : Script C) : Prop :=
  script.hooks = [] ∧ script.trip = none ∧ script.holds = false

/-- The flag is down, and the output takes everything. -/
structure World.IsCalm (store : S) (world : World S) : Prop where
  store_eq : world.store = store
  lowered : world.isRaised = false
  unlimited : world.output.room = none
  isOpen : world.output.isClosed = false

/-- An open output without a limit takes every text. -/
theorem exists_write?_eq_some
    {sink : Output.Sink}
    (unlimited : sink.room = none)
    (isOpen : sink.isClosed = false)
    (text : String) :
    ∃ written, sink.write? text = some written ∧ written.room = none ∧
      written.isClosed = false := by
  unfold Output.Sink.write?
  split
  · exact ⟨sink, rfl, unlimited, isOpen⟩
  · rw [if_neg (by simp [Output.Sink.hasRoom, unlimited, isOpen])]
    exact ⟨_, rfl, by simp [unlimited], isOpen⟩

/-- A report is taken, and nothing else happens. -/
theorem takeReport_of_isQuiet
    {script : Script C}
    (quiet : script.IsQuiet)
    (backend : Backend S C)
    (report : Report)
    {store : S}
    {world : World S}
    (calm : world.IsCalm store) :
    ∃ taken, takeReport backend script report world = ⟨.ok (), taken, []⟩ ∧
      taken.IsCalm store ∧ taken.clock = world.clock := by
  unfold takeReport
  obtain ⟨output, written, unlimited, isOpen⟩ := exists_write?_eq_some calm.unlimited
    calm.isOpen ((script.format.map fun format => format.render (.report report)).getD "")
  simp only [written, quiet.1, List.filter_nil, runHooks]
  exact ⟨_, rfl, ⟨calm.store_eq, calm.lowered, unlimited, isOpen⟩, rfl⟩

/-- A rehearsal without events is steady. -/
theorem isSteady_of_isQuiet
    {script : Script C}
    (quiet : script.IsQuiet)
    (backend : Backend S C)
    (store : S) :
    (host backend script).IsSteady (backend.reader store) World.clock
      (World.IsCalm store) where
  now := fun _ _ => rfl
  reader := fun _ calm => congrArg backend.reader calm.store_eq
  lowered := by
    intro moment world calm
    cases moment <;> simp [host, isRaised, calm.lowered, quiet.2.2]
  ask := by
    intro query world calm
    have asked : (host backend script).ask query world =
        { world with asked := world.asked + 1 } := by
      simp only [host, World.ask, quiet.2.1]
    rw [asked]
    exact ⟨⟨calm.store_eq, calm.lowered, calm.unlimited, calm.isOpen⟩, rfl⟩
  taken := by
    intro report world calm
    obtain ⟨taken, reaction, _⟩ := takeReport_of_isQuiet quiet backend report calm
    exact congrArg Reaction.result reaction
  report := by
    intro report world calm
    obtain ⟨taken, reaction, takenCalm, sameClock⟩ :=
      takeReport_of_isQuiet quiet backend report calm
    simp only [host, reaction]
    exact ⟨takenCalm, sameClock⟩
  fallAsleep := fun _ _ calm =>
    ⟨⟨calm.store_eq, calm.lowered, calm.unlimited, calm.isOpen⟩, rfl⟩
  wake := by
    intro duration world later calm advances
    refine ⟨{ world with clock := later }, ?_, ?_, rfl⟩
    · exact congrArg (Option.map fun clock => { world with clock }) advances
    · exact ⟨calm.store_eq, calm.lowered, calm.unlimited, calm.isOpen⟩

end Rehearsal
end Refresh
end CompositeIndex
