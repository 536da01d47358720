import CompositeIndex.Proofs.Store.Agreement
import CompositeIndex.Refresh.Loop
import CompositeIndex.Refresh.Rehearsal

/-!
# Runs on outsides that look the same

Two outsides of the loop look the same if their clocks, their flags and the recipients of the
reports answer alike and their stores agree, and if they go on to do so whatever the loop does.
A run does then the same on both: `Course.Alike` says so of one part of a run, and the parts are
followed along the definition of the loop. A rehearsal looks the same as another one of the same
script if their stores agree whatever changes the script makes.
-/

namespace CompositeIndex
namespace Refresh

/-! ## Outsides that look the same -/

/-- The recipients take a report in the same way. -/
structure Reaction.Alike
    (alike : σ → τ → Prop)
    (reaction : Reaction σ)
    (other : Reaction τ) : Prop where
  result : reaction.result = other.result
  world : alike reaction.world other.world
  log : reaction.log = other.log

/-- The outsides look the same to the loop in worlds that are alike, and the worlds stay
alike. -/
structure Host.Mirrors
    (host : Host σ)
    (mirror : Host τ)
    (alike : σ → τ → Prop) : Prop where
  now : ∀ {world other}, alike world other → host.now world = mirror.now other
  reader : ∀ {world other}, alike world other →
    (host.reader world).Agrees (mirror.reader other)
  isRaised : ∀ {world other}, alike world other →
    ∀ moment, host.isRaised moment world = mirror.isRaised moment other
  ask : ∀ {world other}, alike world other →
    ∀ query, alike (host.ask query world) (mirror.ask query other)
  report : ∀ {world other}, alike world other →
    ∀ report, (host.report report world).Alike alike (mirror.report report other)
  fallAsleep : ∀ {world other}, alike world other →
    ∀ duration, alike (host.fallAsleep duration world) (mirror.fallAsleep duration other)
  wake : ∀ {world other}, alike world other →
    ∀ duration, Option.Rel alike (host.wake duration world) (mirror.wake duration other)

/-- The same outside over another store. -/
def Host.reading (host : Host σ) (reader : Reader) : Host σ :=
  { host with reader := fun _ => reader }

/-- An outside looks the same over stores that agree. -/
theorem Host.mirrors_reading
    (host : Host σ)
    {reader other : Reader}
    (agrees : reader.Agrees other) :
    (host.reading reader).Mirrors (host.reading other) Eq where
  now := congrArg host.now
  reader := fun _ => agrees
  isRaised := fun same moment => congrArg (host.isRaised moment) same
  ask := fun same query => congrArg (host.ask query) same
  report := by
    rintro world _ rfl report
    exact ⟨rfl, rfl, rfl⟩
  fallAsleep := fun same duration => congrArg (host.fallAsleep duration) same
  wake := by
    rintro world _ rfl duration
    change Option.Rel Eq (host.wake duration world) (host.wake duration world)
    cases host.wake duration world with
    | none => exact .none
    | some world => exact .some rfl

/-- Two loops are in the same phase, in worlds that are alike. -/
structure Standing.Alike
    (alike : σ → τ → Prop)
    (standing : Standing σ)
    (other : Standing τ) : Prop where
  phase : standing.phase = other.phase
  world : alike standing.world other.world

/-- Two parts of runs do the same. -/
structure Course.Alike
    (alike : σ → τ → Prop)
    (course : Course σ α)
    (other : Course τ α) : Prop where
  result : course.result = other.result
  trace : course.trace = other.trace
  standing : course.standing.Alike alike other.standing

section

variable {host : Host σ} {mirror : Host τ} {alike : σ → τ → Prop}
variable {standing : Standing σ} {other : Standing τ}

namespace Course.Alike

theorem pure (answer : α) (same : standing.Alike alike other) :
    Alike alike (.pure answer standing) (.pure answer other) :=
  ⟨rfl, rfl, same⟩

theorem halt (reason : Halt) (same : standing.Alike alike other) :
    Alike alike (.halt reason standing : Course σ α) (.halt reason other) :=
  ⟨rfl, rfl, same⟩

theorem note (activity : Activity) (same : standing.Alike alike other) :
    Alike alike (.note activity standing) (.note activity other) :=
  ⟨rfl, rfl, same⟩

theorem enter (phase : Phase) (same : standing.Alike alike other) :
    Alike alike (.enter phase standing) (.enter phase other) where
  result := rfl
  trace := by rw [Course.enter, Course.enter, same.phase]
  standing := ⟨rfl, same.world⟩

theorem report
    (mirrors : host.Mirrors mirror alike)
    (given : Report)
    (same : standing.Alike alike other) :
    Alike alike (.report host given standing) (.report mirror given other) where
  result := (mirrors.report same.world given).result
  trace := by rw [Course.report, Course.report, (mirrors.report same.world given).log]
  standing := ⟨same.phase, (mirrors.report same.world given).world⟩

/-- Parts that do the same are followed by parts that do the same. -/
theorem andThen
    {course : Course σ α}
    {courseOther : Course τ α}
    (first : Alike alike course courseOther)
    {next : α → Standing σ → Course σ β}
    {nextOther : α → Standing τ → Course τ β}
    (second : ∀ answer standing other, standing.Alike alike other →
      Alike alike (next answer standing) (nextOther answer other)) :
    Alike alike (course.andThen next) (courseOther.andThen nextOther) := by
  obtain ⟨result, standing, trace⟩ := course
  obtain ⟨_, other, _⟩ := courseOther
  obtain ⟨⟨⟩, ⟨⟩, same⟩ := first
  cases result with
  | error reason => exact ⟨rfl, rfl, same⟩
  | ok answer =>
      have rest := second answer standing other same
      exact ⟨rest.result, congrArg (trace ++ ·) rest.trace, rest.standing⟩

/-- Parts of runs in one world that do the same are equal. -/
theorem eq
    {course other : Course σ α}
    (same : Alike Eq course other) :
    course = other := by
  obtain ⟨result, ⟨phase, world⟩, trace⟩ := course
  obtain ⟨_, ⟨_, _⟩, _⟩ := other
  obtain ⟨⟨⟩, ⟨⟩, ⟨⟨⟩, ⟨⟩⟩⟩ := same
  rfl

/-- What depends on the flag is the same if it is so either way. -/
theorem look
    (mirrors : host.Mirrors mirror alike)
    (same : standing.Alike alike other)
    (moment : Moment)
    {stop rest : Course σ α}
    {stopOther restOther : Course τ α}
    (stops : Alike alike stop stopOther)
    (goesOn : Alike alike rest restOther) :
    Alike alike
      (if host.isRaised moment standing.world = true then stop else rest)
      (if mirror.isRaised moment other.world = true then stopOther else restOther) := by
  rw [mirrors.isRaised same.world moment]
  split
  · exact stops
  · exact goesOn

end Course.Alike

namespace Loop

/-! ## One index -/

theorem alike_await
    (mirrors : host.Mirrors mirror alike)
    (readings : List Reading)
    (same : standing.Alike alike other) :
    Course.Alike alike (await host readings standing) (await mirror readings other) := by
  induction readings generalizing standing other with
  | nil => exact .pure false same
  | cons reading readings inductionHypothesis =>
      unfold await
      have asked : Standing.Alike alike
          { standing with world := host.ask reading.query standing.world }
          { other with world := mirror.ask reading.query other.world } :=
        ⟨same.phase, mirrors.ask same.world _⟩
      refine .andThen (.note _ asked) fun _ _ _ same => ?_
      refine .look mirrors same .awaiting (.pure true same) ?_
      exact .andThen (.note _ same) fun _ _ _ same => inductionHypothesis same

theorem alike_conclude
    (mirrors : host.Mirrors mirror alike)
    (pass : Nat)
    (index : String)
    (result : Except Failure IndexValue)
    (same : standing.Alike alike other) :
    Course.Alike alike (conclude host pass index result standing)
      (conclude mirror pass index result other) := by
  cases result with
  | ok value => exact .andThen (.report mirrors _ same) fun _ _ _ same => .pure _ same
  | error failure =>
      unfold conclude
      refine .andThen (.note _ same) fun _ _ _ same => ?_
      exact .andThen (.report mirrors _ same) fun _ _ _ same => .pure _ same

theorem alike_drop
    (pass : Nat)
    (index : String)
    (same : standing.Alike alike other) :
    Course.Alike alike (drop pass index standing) (drop pass index other) := by
  refine .andThen (.note _ same) fun _ _ _ same => ?_
  exact .andThen (.note _ same) fun _ _ _ same => .pure _ same

theorem alike_computePlan
    (loop : Loop)
    (mirrors : host.Mirrors mirror alike)
    (pass : Nat)
    (plan : Plan)
    (window : Window)
    (same : standing.Alike alike other) :
    Course.Alike alike (loop.computePlan host pass plan window standing)
      (loop.computePlan mirror pass plan window other) := by
  unfold computePlan
  refine .look mirrors same .computing (alike_drop pass plan.index same) ?_
  rw [Aggregator.compute_congr (mirrors.reader same.world)]
  refine .andThen (alike_await mirrors _ same) fun isInterrupted _ _ same => ?_
  cases isInterrupted with
  | true => exact alike_drop pass plan.index same
  | false => exact alike_conclude mirrors pass plan.index _ same

theorem alike_runPlan
    (loop : Loop)
    (mirrors : host.Mirrors mirror alike)
    (pass : Nat)
    (plan : Plan)
    (same : standing.Alike alike other) :
    Course.Alike alike (loop.runPlan host pass plan standing)
      (loop.runPlan mirror pass plan other) := by
  unfold runPlan
  refine .look mirrors same .indexStart ?_ ?_
  · exact .andThen (.note _ same) fun _ _ _ same => .pure _ same
  · refine .andThen (.enter _ same) fun _ _ other same => ?_
    rw [mirrors.now same.world]
    cases Window.trailing? (mirror.now other.world) loop.schedule.span with
    | none => exact .halt _ same
    | some window => exact alike_computePlan loop mirrors pass plan window same

/-! ## One pass -/

theorem alike_runPlans
    (loop : Loop)
    (mirrors : host.Mirrors mirror alike)
    (plans : List Plan)
    (counts : PassReport)
    (same : standing.Alike alike other) :
    Course.Alike alike (loop.runPlans host plans counts standing)
      (loop.runPlans mirror plans counts other) := by
  induction plans generalizing standing other counts with
  | nil => exact .pure _ same
  | cons plan plans inductionHypothesis =>
      unfold runPlans
      refine .andThen (alike_runPlan loop mirrors _ plan same) fun planEnd _ _ same => ?_
      cases planEnd with
      | interrupted => exact .pure _ same
      | computed => exact inductionHypothesis _ same
      | failed =>
          cases loop.schedule.policy with
          | abortPass => exact .pure _ same
          | skipIndex => exact inductionHypothesis _ same

/-! ## Pass after pass -/

theorem alike_pause
    (loop : Loop)
    (mirrors : host.Mirrors mirror alike)
    (summary : Summary)
    (same : standing.Alike alike other) :
    Course.Alike alike (loop.pause host summary standing)
      (loop.pause mirror summary other) := by
  unfold pause
  refine .look mirrors same .beforeSleep ?_ ?_
  · exact .andThen (.note _ same) fun _ _ _ same => .pure _ same
  · have asleep : Standing.Alike alike
        { standing with world := host.fallAsleep loop.schedule.interval standing.world }
        { other with world := mirror.fallAsleep loop.schedule.interval other.world } :=
      ⟨same.phase, mirrors.fallAsleep same.world _⟩
    refine .andThen (.note _ asleep) fun _ standing other same => ?_
    refine .look mirrors same .asleep ?_ ?_
    · exact .andThen (.note _ same) fun _ _ _ same => .pure _ same
    · have wakes := mirrors.wake same.world loop.schedule.interval
      generalize host.wake loop.schedule.interval standing.world = woken at wakes ⊢
      generalize mirror.wake loop.schedule.interval other.world = wokenOther at wakes ⊢
      cases wakes with
      | none => exact .halt _ same
      | some sameWorld => exact .pure _ ⟨same.phase, sameWorld⟩

theorem alike_closePass
    (loop : Loop)
    (mirrors : host.Mirrors mirror alike)
    (summary : Summary)
    (report : PassReport)
    (same : standing.Alike alike other) :
    Course.Alike alike (loop.closePass host summary report standing)
      (loop.closePass mirror summary report other) := by
  unfold closePass
  refine .andThen (.report mirrors _ same) fun _ _ _ same => ?_
  dsimp only
  split
  · exact .pure _ same
  · exact .andThen (.enter _ same) fun _ _ _ same => alike_pause loop mirrors _ same

theorem alike_turn
    (loop : Loop)
    (mirrors : host.Mirrors mirror alike)
    (summary : Summary)
    (same : standing.Alike alike other) :
    Course.Alike alike (loop.turn host summary standing) (loop.turn mirror summary other) := by
  unfold turn
  refine .look mirrors same .passStart ?_ ?_
  · exact .andThen (.note _ same) fun _ _ _ same => .pure _ same
  · refine .andThen (alike_runPlans loop mirrors _ _ same) fun passEnd _ _ same => ?_
    cases passEnd with
    | interrupted report => exact .pure _ same
    | finished report => exact alike_closePass loop mirrors summary report same

theorem alike_turns
    (loop : Loop)
    (mirrors : host.Mirrors mirror alike)
    (rounds : Nat)
    (summary : Summary)
    (same : standing.Alike alike other) :
    Course.Alike alike (loop.turns host rounds summary standing)
      (loop.turns mirror rounds summary other) := by
  induction rounds generalizing standing other summary with
  | zero => exact .halt _ same
  | succ rounds inductionHypothesis =>
      unfold turns
      refine .andThen (alike_turn loop mirrors summary same) fun sequel _ _ same => ?_
      cases sequel with
      | again summary => exact inductionHypothesis summary same
      | _ => exact .pure _ same

/-- A run does the same on outsides that look the same. -/
theorem alike_run
    (loop : Loop)
    (mirrors : host.Mirrors mirror alike)
    (same : standing.Alike alike other) :
    Course.Alike alike (loop.run host standing) (loop.run mirror other) := by
  unfold run
  refine .andThen (.note _ same) fun _ _ _ same => ?_
  refine .andThen (alike_turns loop mirrors _ _ same) fun summary _ _ same => ?_
  refine .andThen (.enter _ same) fun _ _ _ same => ?_
  exact .andThen (.note _ same) fun _ _ _ same => .pure _ same

end Loop

end

/-! ## Rehearsals on stores that agree -/

namespace Rehearsal

/-- The worlds differ in their stores only, and these are related. -/
inductive World.Beside (related : S → S → Prop) (world : World S) : World S → Prop
  | replaced (store : S) (isRelated : related world.store store) :
      Beside related world { world with store }

/-- Related stores agree, and they stay related whatever change is made to both of them. -/
structure Backend.Respects (backend : Backend S C) (related : S → S → Prop) : Prop where
  reader : ∀ {store other}, related store other →
    (backend.reader store).Agrees (backend.reader other)
  result : ∀ {store other}, related store other →
    ∀ given, (backend.change given store).result = (backend.change given other).result
  store : ∀ {store other}, related store other →
    ∀ given, related (backend.change given store).store (backend.change given other).store
  log : ∀ {store other}, related store other →
    ∀ given, (backend.change given store).log = (backend.change given other).log

section

variable {backend : Backend S C} {related : S → S → Prop} {store storeOther : S}
variable {world other : World S}

theorem tryAll_of_respects
    (respects : backend.Respects related)
    (changes : List C)
    (isRelated : related store storeOther) :
    (backend.tryAll changes store).result = (backend.tryAll changes storeOther).result ∧
      related (backend.tryAll changes store).store (backend.tryAll changes storeOther).store ∧
      (backend.tryAll changes store).log = (backend.tryAll changes storeOther).log := by
  induction changes generalizing store storeOther with
  | nil => exact ⟨rfl, isRelated, rfl⟩
  | cons given later inductionHypothesis =>
      have sameResult := respects.result isRelated given
      have sameLog := respects.log isRelated given
      have stillRelated := respects.store isRelated given
      obtain ⟨restResult, restRelated, restLog⟩ := inductionHypothesis stillRelated
      unfold Backend.tryAll
      dsimp only
      rw [sameResult]
      split
      · exact ⟨sameResult, stillRelated, sameLog⟩
      · exact ⟨restResult, restRelated, by rw [sameLog, restLog]⟩

theorem alike_afterChanges
    (hook : Hook C)
    (log : List LogLine)
    (beside : world.Beside related other) :
    (afterChanges hook log world).Alike (World.Beside related)
      (afterChanges hook log other) := by
  obtain ⟨store, isRelated⟩ := beside
  obtain ⟨position, changes, advance, raises, releases, refuses⟩ := hook
  unfold afterChanges
  dsimp only
  cases advance.elim (some world.clock) world.clock.advance? with
  | none => exact ⟨rfl, ⟨store, isRelated⟩, rfl⟩
  | some clock =>
      cases raises <;> cases releases <;> cases refuses <;>
        exact ⟨rfl, ⟨store, isRelated⟩, rfl⟩

theorem alike_runHook
    (respects : backend.Respects related)
    (hook : Hook C)
    (beside : world.Beside related other) :
    (runHook backend hook world).Alike (World.Beside related) (runHook backend hook other) := by
  obtain ⟨store, isRelated⟩ := beside
  obtain ⟨sameResult, stillRelated, sameLog⟩ :=
    tryAll_of_respects respects hook.changes isRelated
  unfold runHook
  dsimp only
  rw [sameResult, sameLog]
  cases (backend.tryAll hook.changes store).result with
  | error problem => exact ⟨rfl, ⟨_, stillRelated⟩, rfl⟩
  | ok _ => exact alike_afterChanges hook _ ⟨_, stillRelated⟩

theorem alike_runHooks
    (respects : backend.Respects related)
    (hooks : List (Hook C))
    (beside : world.Beside related other) :
    (runHooks backend hooks world).Alike (World.Beside related)
      (runHooks backend hooks other) := by
  induction hooks generalizing world other with
  | nil => exact ⟨rfl, beside, rfl⟩
  | cons hook hooks inductionHypothesis =>
      have first := alike_runHook respects hook beside
      have rest := inductionHypothesis first.world
      unfold runHooks
      dsimp only
      rw [first.result]
      split
      · exact first
      · exact ⟨rest.result, rest.world, by rw [first.log, rest.log]⟩

theorem alike_takeReport
    (respects : backend.Respects related)
    (script : Script C)
    (report : Report)
    (beside : world.Beside related other) :
    (takeReport backend script report world).Alike (World.Beside related)
      (takeReport backend script report other) := by
  obtain ⟨store, isRelated⟩ := beside
  unfold takeReport
  dsimp only
  cases world.output.write?
      ((script.format.map fun format => format.render (.report report)).getD "") with
  | none => exact ⟨rfl, ⟨store, isRelated⟩, rfl⟩
  | some output => exact alike_runHooks respects _ ⟨store, isRelated⟩

theorem beside_ask
    (trip : Option Trip)
    (beside : world.Beside related other) :
    (world.ask trip).Beside related (other.ask trip) := by
  obtain ⟨store, isRelated⟩ := beside
  cases trip with
  | none => exact ⟨store, isRelated⟩
  | some trip =>
      unfold World.ask
      dsimp only
      split <;> exact ⟨store, isRelated⟩

/-- Rehearsals of one script look the same on stores that agree. -/
theorem mirrors_of_respects
    (respects : backend.Respects related)
    (script : Script C) :
    (host backend script).Mirrors (host backend script) (World.Beside related) where
  now := by
    rintro world _ ⟨store, isRelated⟩
    rfl
  reader := by
    rintro world _ ⟨store, isRelated⟩
    exact respects.reader isRelated
  isRaised := by
    rintro world _ ⟨store, isRelated⟩ moment
    cases moment <;> rfl
  ask := fun beside _ => beside_ask script.trip beside
  report := fun beside report => alike_takeReport respects script report beside
  fallAsleep := by
    rintro world _ ⟨store, isRelated⟩ duration
    exact ⟨store, isRelated⟩
  wake := by
    rintro world _ ⟨store, isRelated⟩ duration
    change Option.Rel _ ((world.clock.advance? duration).map _)
      ((world.clock.advance? duration).map _)
    cases world.clock.advance? duration with
    | none => exact .none
    | some clock => exact .some ⟨store, isRelated⟩

end

end Rehearsal
end Refresh
end CompositeIndex
