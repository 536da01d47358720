import CompositeIndex.Proofs.Refresh.Uninterrupted
import CompositeIndex.Proofs.Time.Years
import CompositeIndex.Refresh.Rehearsal

/-!
# What a pass can break off for

Besides a report that is refused there is one thing that a single pass breaks off for: the window
of an index reaches back behind the calendar. A schedule is accepted with any positive span, so
this does happen, but not with spans of up to 9999 years. While the clock stands still, the first
index decides.
-/

namespace CompositeIndex
namespace Refresh

/-- What a pass asks of the outside: the world keeps a property, and the recipient of the reports
refuses them or takes them. -/
structure Host.ServesPass (host : Host σ) (property : σ → Prop) : Prop where
  ask : ∀ {world}, property world → ∀ query, property (host.ask query world)
  report : ∀ {world}, property world → ∀ report, property (host.report report world).world
  refuses : ∀ {world}, property world → ∀ report reason,
    (host.report report world).result = .error reason → ∃ problem, reason = .output problem

theorem Host.ServesPass.undisturbed
    {host : Host σ}
    {property : σ → Prop}
    (serves : host.ServesPass property) :
    host.undisturbed.ServesPass property where
  ask := serves.ask
  report := serves.report
  refuses := serves.refuses

namespace Course

/-- The part has an answer, or a report is refused. -/
def IsAnswered (course : Course σ α) : Prop :=
  (∃ answer, course.result = .ok answer) ∨ ∃ problem, course.result = .error (.output problem)

/-- How a part of a run ends: the world has kept a property, and the part is answered unless the
loop is lost where it stands. -/
structure EndsWith
    (course : Course σ α)
    (property : σ → Prop)
    (isLost : Standing σ → Prop) : Prop where
  kept : property course.standing.world
  cases : course.IsAnswered ∨ course.result = .error .leftCalendar ∧ isLost course.standing

namespace EndsWith

variable {standing : Standing σ} {property : σ → Prop} {isLost : Standing σ → Prop}

/-- A part that has an answer. -/
theorem of_ok
    {course : Course σ α}
    {answer : α}
    (answered : course.result = .ok answer)
    (kept : property course.standing.world) :
    course.EndsWith property isLost where
  kept := kept
  cases := .inl (.inl ⟨answer, answered⟩)

theorem leftCalendar
    (kept : property standing.world)
    (lost : isLost standing) :
    (Course.halt (α := α) .leftCalendar standing).EndsWith property isLost where
  kept := kept
  cases := .inr ⟨rfl, lost⟩

theorem report
    {host : Host σ}
    (serves : host.ServesPass property)
    (report : Report)
    (kept : property standing.world) :
    (Course.report host report standing).EndsWith property isLost where
  kept := serves.report kept report
  cases := by
    have refuses := serves.refuses kept report
    unfold Course.report
    cases result : (host.report report standing.world).result with
    | ok answer => exact .inl (.inl ⟨answer, result⟩)
    | error reason =>
        obtain ⟨problem, rfl⟩ := refuses reason result
        exact .inl (.inr ⟨problem, result⟩)

/-- The second part begins where the first one has stopped. -/
theorem andThen
    {course : Course σ α}
    {next : α → Standing σ → Course σ β}
    (first : course.EndsWith property isLost)
    (second : ∀ answer, property course.standing.world →
      (next answer course.standing).EndsWith property isLost) :
    (course.andThen next).EndsWith property isLost := by
  have ends := first.cases
  unfold Course.andThen
  cases result : course.result with
  | ok answer => exact ⟨(second answer first.kept).kept, (second answer first.kept).cases⟩
  | error reason =>
      rw [IsAnswered, result] at ends
      rcases ends with (⟨_, answered⟩ | ⟨problem, refused⟩) | ⟨broken, lost⟩
      · cases answered
      · cases refused
        exact ⟨first.kept, .inl (.inr ⟨problem, rfl⟩)⟩
      · cases broken
        exact ⟨first.kept, .inr ⟨rfl, lost⟩⟩

end EndsWith
end Course

namespace Loop

/-- The loop computes one of the indexes and its window has no room. -/
def IsLostAt
    (loop : Loop)
    (host : Host σ)
    (pass : Nat)
    (indexes : List String)
    (standing : Standing σ) : Prop :=
  ∃ index ∈ indexes, standing.phase = .computing pass index ∧
    ¬Window.HasRoom (host.now standing.world) loop.schedule.span

section

variable {loop : Loop} {host : Host σ} {standing : Standing σ} {pass : Nat}
variable {property : σ → Prop} {isLost : Standing σ → Prop}

/-! ## One index -/

theorem endsWith_await
    (serves : host.ServesPass property)
    (readings : List Reading)
    (kept : property standing.world) :
    (await host readings standing).EndsWith property isLost := by
  induction readings generalizing standing with
  | nil => exact .of_ok rfl kept
  | cons reading readings inductionHypothesis =>
      unfold await
      refine Course.EndsWith.andThen (.of_ok rfl (serves.ask kept reading.query)) fun _ kept => ?_
      split
      · exact .of_ok rfl kept
      · exact Course.EndsWith.andThen (.of_ok rfl kept) fun _ kept => inductionHypothesis kept

theorem endsWith_conclude
    (serves : host.ServesPass property)
    (index : String)
    (result : Except Failure IndexValue)
    (kept : property standing.world) :
    (conclude host pass index result standing).EndsWith property isLost := by
  unfold conclude
  cases result with
  | ok value =>
      exact (Course.EndsWith.report serves _ kept).andThen fun _ kept => .of_ok rfl kept
  | error failure =>
      refine Course.EndsWith.andThen (.of_ok rfl kept) fun _ kept => ?_
      exact (Course.EndsWith.report serves _ kept).andThen fun _ kept => .of_ok rfl kept

theorem endsWith_computePlan
    (serves : host.ServesPass property)
    (plan : Plan)
    (window : Window)
    (kept : property standing.world) :
    (loop.computePlan host pass plan window standing).EndsWith property isLost := by
  unfold computePlan
  split
  · exact .of_ok rfl kept
  · refine (endsWith_await serves _ kept).andThen fun isInterrupted kept => ?_
    split
    · exact .of_ok rfl kept
    · exact endsWith_conclude serves plan.index _ kept

/-- Work on an index is lost only for want of room for its window. -/
theorem endsWith_runPlan
    (serves : host.ServesPass property)
    {indexes : List String}
    {plan : Plan}
    (member : plan.index ∈ indexes)
    (kept : property standing.world) :
    (loop.runPlan host pass plan standing).EndsWith property
      (loop.IsLostAt host pass indexes) := by
  unfold runPlan
  split
  · exact .of_ok rfl kept
  · refine Course.EndsWith.andThen (.of_ok rfl kept) fun _ kept => ?_
    split
    next noWindow =>
      refine .leftCalendar kept ⟨plan.index, member, rfl, fun room => ?_⟩
      rw [Window.trailing?_eq_some_iff.mpr ⟨room, rfl⟩] at noWindow
      cases noWindow
    next window _ => exact endsWith_computePlan serves plan window kept

/-! ## One pass -/

theorem endsWith_runPlans
    (serves : host.ServesPass property)
    {indexes : List String}
    (plans : List Plan)
    (members : ∀ plan ∈ plans, plan.index ∈ indexes)
    (counts : PassReport)
    (kept : property standing.world) :
    (loop.runPlans host plans counts standing).EndsWith property
      (loop.IsLostAt host counts.pass indexes) := by
  induction plans generalizing counts standing with
  | nil => exact .of_ok rfl kept
  | cons plan plans inductionHypothesis =>
      obtain ⟨member, others⟩ := List.forall_mem_cons.mp members
      unfold runPlans
      refine (endsWith_runPlan serves member kept).andThen fun planEnd kept => ?_
      cases planEnd with
      | interrupted => exact .of_ok rfl kept
      | computed => exact inductionHypothesis others _ kept
      | failed =>
          dsimp only
          split
          · exact .of_ok rfl kept
          · exact inductionHypothesis others _ kept

theorem endsWith_runOnce
    (serves : host.ServesPass property)
    (kept : property standing.world) :
    (loop.runOnce host standing).EndsWith property
      (loop.IsLostAt host 1 (loop.plans.map Plan.index)) := by
  have pass : (loop.runPass host.undisturbed 1 standing).EndsWith property
      (loop.IsLostAt host 1 (loop.plans.map Plan.index)) :=
    endsWith_runPlans serves.undisturbed loop.plans
      (fun _ member => List.mem_map_of_mem member) _ kept
  refine pass.andThen fun passEnd kept => ?_
  refine (Course.EndsWith.report serves _ kept).andThen fun _ kept => ?_
  exact Course.EndsWith.andThen (.of_ok rfl kept) fun _ kept => .of_ok rfl kept

/-- If there is no room for the window of the first index, the pass does not get further. -/
theorem runOnce_of_not_hasRoom
    (nonempty : loop.plans ≠ [])
    (noRoom : ¬Window.HasRoom (host.now standing.world) loop.schedule.span) :
    (loop.runOnce host standing).result = .error .leftCalendar := by
  have noWindow : Window.trailing? (host.now standing.world) loop.schedule.span = none := by
    rw [Option.eq_none_iff_forall_ne_some]
    intro window given
    exact noRoom (Window.trailing?_eq_some_iff.mp given).1
  cases plans : loop.plans with
  | nil => exact absurd plans nonempty
  | cons plan others =>
      simp only [runOnce, runPass, plans, runPlans, runPlan, Host.undisturbed, Bool.false_eq_true,
        if_false, Course.andThen, Course.enter, noWindow, Course.halt]

end

/-- Only positive spans are accepted. -/
theorem span_pos_of_new
    {catalog : Catalog}
    {config : IndexConfig}
    {schedule : Schedule}
    {loop : Loop}
    (built : Loop.new catalog config schedule = .ok loop) :
    0 < schedule.span.nanos := by
  cases positive : schedule.span.isPositive with
  | true => exact of_decide_eq_true positive
  | false =>
      rw [Loop.new, Schedule.validate, positive] at built
      split at built
      · cases built
      · rename_i accepted
        split at accepted <;> cases accepted

/-- A recipient that does nothing else takes every report, and the clock stands still. -/
theorem servesPass_host (backend : Rehearsal.Backend S C) (start : Timestamp) :
    (Rehearsal.host backend {}).ServesPass fun world => world.clock.now = start where
  ask := fun same _ => same
  report := fun same _ => same
  refuses := nofun

/-! ## Main theorem -/

/-- A single pass of a loop that was built, while the clock shows years that are written with
four digits. Besides an answer and a refused report there is one outcome: the loop stands at an
index whose window would reach back behind the calendar. This cannot happen with spans of up to
9999 years. With a longer reach than the clock allows, it does happen at the first index; and if
the clock stands still, at no other one. -/
theorem runOnce_leftCalendar_only
    {catalog : Catalog}
    {config : IndexConfig}
    {schedule : Schedule}
    {loop : Loop}
    (built : Loop.new catalog config schedule = .ok loop)
    {host : Host σ}
    {property : σ → Prop}
    (serves : host.ServesPass property)
    (written : ∀ world, property world → (host.now world).HasWrittenYear)
    {standing : Standing σ}
    (begins : property standing.world) :
    let course := loop.runOnce host standing
    (course.IsAnswered ∨ course.result = .error .leftCalendar ∧
      ∃ index ∈ catalog.indexes, course.standing.phase = .computing 1 index ∧
        Window.reach (host.now course.standing.world) < schedule.span.nanos) ∧
    (schedule.span.nanos ≤ (Duration.ofDays 3652059).nanos → course.IsAnswered) ∧
    (catalog.indexes ≠ [] → Window.reach (host.now standing.world) < schedule.span.nanos →
      course.result = .error .leftCalendar) ∧
    ((∀ world, property world → host.now world = host.now standing.world) →
      (course.IsAnswered ↔
        catalog.indexes = [] ∨
          schedule.span.nanos ≤ Window.reach (host.now standing.world))) := by
  intro course
  have positive := span_pos_of_new built
  have indexes := map_index_of_new built
  obtain ⟨_, _, _, _, rfl⟩ := exists_divisors_of_new built
  have hasRoom : ∀ world, property world →
      (Window.HasRoom (host.now world) loop.schedule.span ↔
        loop.schedule.span.nanos ≤ Window.reach (host.now world)) :=
    fun world holds => Window.hasRoom_iff_le_reach (written world holds) positive
  obtain ⟨kept, ends⟩ : course.EndsWith property
      (loop.IsLostAt host 1 (loop.plans.map Plan.index)) := endsWith_runOnce serves begins
  have outcome : course.IsAnswered ∨ course.result = .error .leftCalendar ∧
      ∃ index ∈ catalog.indexes, course.standing.phase = .computing 1 index ∧
        Window.reach (host.now course.standing.world) < loop.schedule.span.nanos := by
    rcases ends with answered | ⟨broken, index, member, here, noRoom⟩
    · exact .inl answered
    · rw [indexes] at member
      have tooLong := Int.not_le.mp (mt (hasRoom _ kept).mpr noRoom)
      exact .inr ⟨broken, index, member, here, tooLong⟩
  have first : catalog.indexes ≠ [] →
      Window.reach (host.now standing.world) < loop.schedule.span.nanos →
        course.result = .error .leftCalendar := by
    intro nonempty tooLong
    refine runOnce_of_not_hasRoom ?_ fun room => ?_
    · rintro isEmpty
      rw [← indexes, isEmpty] at nonempty
      exact nonempty rfl
    · exact Int.not_le.mpr tooLong ((hasRoom _ begins).mp room)
  refine ⟨outcome, ?short, first, ?still⟩
  case short =>
    intro short
    rcases outcome with answered | ⟨_, _, _, _, tooLong⟩
    · exact answered
    · have within := Int.le_trans short (Window.le_reach (written _ kept))
      exact absurd within (Int.not_le.mpr tooLong)
  case still =>
    intro still
    constructor
    · intro answered
      refine Classical.or_iff_not_imp_left.mpr fun nonempty => Int.not_lt.mp fun tooLong => ?_
      have broken := first nonempty tooLong
      rcases answered with ⟨_, ok⟩ | ⟨_, refused⟩
      · cases broken.symm.trans ok
      · cases broken.symm.trans refused
    · intro sound
      rcases outcome with answered | ⟨_, index, member, _, tooLong⟩
      · exact answered
      · rw [still _ kept] at tooLong
        rcases sound with none | within
        · rw [none] at member
          cases member
        · exact absurd within (Int.not_le.mpr tooLong)

/-- A pass over one index, whose window is a day long. -/
theorem runOnce_leftCalendar_only_sample :
    let catalog := Catalog.ofGroups [(Tag.indexes, ["I"]), (Tag.products, ["A"])]
    let start : Timestamp := ⟨1772452800000000000, 0, by decide⟩
    let standing : Standing (Rehearsal.World MemoryStore) :=
      ⟨.idle, { store := .empty, clock := .startingAt start }⟩
    start.HasWrittenYear ∧ ∃ loop, Loop.new catalog IndexConfig.empty {} = .ok loop ∧
      (loop.runOnce (Rehearsal.host Rehearsal.Backend.memory {}) standing).IsAnswered := by
  intro catalog start standing
  have written : start.HasWrittenYear := by decide
  have built : Loop.new catalog IndexConfig.empty {} =
      .ok ⟨Aggregator.new Divisors.default catalog, plansOf IndexConfig.empty catalog, {}⟩ := by
    rfl
  have stands : ∀ world : Rehearsal.World MemoryStore, world.clock.now = start →
      world.clock.now.HasWrittenYear := fun _ same => same ▸ written
  obtain ⟨_, short, _⟩ := runOnce_leftCalendar_only built
    (servesPass_host Rehearsal.Backend.memory start) stands
    (show standing.world.clock.now = start from rfl)
  exact ⟨written, _, built, short (by decide)⟩

/-- A span of a million million seconds is accepted, and the pass leaves the calendar. -/
theorem runOnce_leaves_calendar :
    let catalog := Catalog.ofGroups [(Tag.indexes, ["I"]), (Tag.products, ["A"])]
    let schedule : Schedule := { span := Duration.ofSeconds 1000000000000 }
    let start : Timestamp := ⟨1772452800000000000, 0, by decide⟩
    let standing : Standing (Rehearsal.World MemoryStore) :=
      ⟨.idle, { store := .empty, clock := .startingAt start }⟩
    start.HasWrittenYear ∧ ∃ loop, Loop.new catalog IndexConfig.empty schedule = .ok loop ∧
      (loop.runOnce (Rehearsal.host Rehearsal.Backend.memory {}) standing).result =
        .error .leftCalendar := by
  -- without local definitions the run is evaluated
  dsimp only
  exact ⟨by decide, _, rfl, rfl⟩

end Loop
end Refresh
end CompositeIndex
