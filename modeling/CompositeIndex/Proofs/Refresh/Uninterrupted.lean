import CompositeIndex.Proofs.Refresh.Steady

/-!
# The reports of an uninterrupted run

A pass reports every index in the order of the catalog, or up to the first failure if a
failure ends the pass, and then itself. The passes of a run differ in their windows only,
which follow the clock from pass to pass. Between the passes, and nowhere else, the run
sleeps.
-/

namespace CompositeIndex
namespace Refresh

/-! ## The reports of a pass -/

namespace FailurePolicy

/-- What becomes of the reports of a pass: if a failure ends the pass, the first failure is
the last report. -/
def cut : FailurePolicy → List Report → List Report
  | .skipIndex, reports => reports
  | .abortPass, reports => reports.take (reports.findIdx Report.isFailure + 1)

@[simp] theorem cut_nil (policy : FailurePolicy) : policy.cut [] = [] := by
  cases policy <;> rfl

/-- A value does not end a pass. -/
theorem cut_cons_of_success
    (policy : FailurePolicy)
    {report : Report}
    (success : report.isFailure = false)
    (reports : List Report) :
    policy.cut (report :: reports) = report :: policy.cut reports := by
  cases policy with
  | skipIndex => rfl
  | abortPass => simp [cut, List.findIdx_cons, success]

theorem cut_abortPass_cons_of_failure
    {report : Report}
    (failure : report.isFailure = true)
    (reports : List Report) :
    abortPass.cut (report :: reports) = [report] := by
  simp [cut, List.findIdx_cons, failure]

end FailurePolicy

namespace PassReport

/-- The counts with those of further reports added. -/
def count
    (policy : FailurePolicy)
    (counts : PassReport)
    (reports : List Report) : PassReport :=
  { counts with
    computed := counts.computed + reports.countP fun report => !report.isFailure
    failed := counts.failed + reports.countP Report.isFailure
    aborted := counts.aborted || policy = .abortPass && reports.any Report.isFailure }

@[simp] theorem count_nil (policy : FailurePolicy) (counts : PassReport) :
    counts.count policy [] = counts := by
  simp [count]

theorem count_cons_of_success
    (policy : FailurePolicy)
    (counts : PassReport)
    {report : Report}
    (success : report.isFailure = false)
    (reports : List Report) :
    counts.count policy (report :: reports) =
      { counts with computed := counts.computed + 1 }.count policy reports := by
  simp [count, success, Nat.add_assoc, Nat.add_comm 1]

theorem count_skipIndex_cons_of_failure
    (counts : PassReport)
    {report : Report}
    (failure : report.isFailure = true)
    (reports : List Report) :
    counts.count .skipIndex (report :: reports) =
      { counts with failed := counts.failed + 1 }.count .skipIndex reports := by
  simp [count, failure, Nat.add_assoc, Nat.add_comm 1]

theorem count_abortPass_of_failure
    (counts : PassReport)
    {report : Report}
    (failure : report.isFailure = true) :
    counts.count .abortPass [report] =
      { counts with failed := counts.failed + 1, aborted := true } := by
  simp [count, failure]

end PassReport

namespace Loop

section

variable (loop : Loop) (reader : Reader) (pass : Nat) (window : Window)

/-- The report of an index in a window. -/
def reportOf (plan : Plan) : Report :=
  .ofResult pass plan.index
    (loop.aggregator.compute reader plan.index plan.constituents window
      loop.schedule.reportEach).result

/-- The reports on the indexes in a pass. -/
def block (plans : List Plan) : List Report :=
  loop.schedule.policy.cut (plans.map (loop.reportOf reader pass window))

/-- The report on a pass. -/
def passReport : PassReport :=
  ({ pass } : PassReport).count loop.schedule.policy (loop.block reader pass window loop.plans)

end

variable {loop : Loop} {host : Host σ} {reader : Reader}
variable {clock : σ → ManualClock} {calm : σ → Prop}
variable {time : ManualClock} {standing : Standing σ}

/-- The indexes are reported one after the other, and counted. -/
theorem yields_runPlans
    (steady : host.IsSteady reader clock calm)
    {window : Window}
    (plans : List Plan)
    (inRange : ∀ plan ∈ plans, Window.trailing? time.now loop.schedule.span = some window)
    (counts : PassReport)
    (shows : Shows clock calm time standing.world) :
    Yields clock calm (loop.runPlans host plans counts standing)
      (.finished
        (counts.count loop.schedule.policy (loop.block reader counts.pass window plans)))
      (loop.block reader counts.pass window plans) time := by
  induction plans generalizing counts standing with
  | nil =>
      rw [block, List.map_nil, FailurePolicy.cut_nil, PassReport.count_nil]
      exact .pure _ shows
  | cons plan plans inductionHypothesis =>
      obtain ⟨inRangeFirst, inRangeOthers⟩ := List.forall_mem_cons.mp inRange
      have first := loop.yields_runPlan steady counts.pass plan inRangeFirst shows
      rw [block, List.map_cons, runPlans, reportOf]
      cases result : (loop.aggregator.compute reader plan.index plan.constituents window
          loop.schedule.reportEach).result with
      | ok value =>
          rw [FailurePolicy.cut_cons_of_success _ rfl,
            PassReport.count_cons_of_success _ _ rfl]
          simp only [result] at first
          refine .andThen first fun standing shows => ?_
          exact inductionHypothesis inRangeOthers { counts with computed := counts.computed + 1 }
            shows
      | error failure =>
          simp only [result] at first
          cases policy : loop.schedule.policy with
          | skipIndex =>
              simp only [block, policy, FailurePolicy.cut] at inductionHypothesis ⊢
              rw [PassReport.count_skipIndex_cons_of_failure _ rfl]
              refine .andThen first fun standing shows => ?_
              exact inductionHypothesis inRangeOthers { counts with failed := counts.failed + 1 }
                shows
          | abortPass =>
              rw [FailurePolicy.cut_abortPass_cons_of_failure rfl,
                PassReport.count_abortPass_of_failure _ rfl]
              exact .andThen first fun standing shows => .pure _ shows

/-- The reports of a turn: those on the indexes and the one on the pass. -/
def turnReports (loop : Loop) (reader : Reader) (pass : Nat) (window : Window) : List Report :=
  loop.block reader pass window loop.plans ++ [.finished (loop.passReport reader pass window)]

/-- A pause ends when the time slept is over. -/
theorem yields_pause
    (steady : host.IsSteady reader clock calm)
    (summary : Summary)
    {later : ManualClock}
    (sleeps : time.sleep? loop.schedule.interval = some later)
    (shows : Shows clock calm time standing.world) :
    Yields clock calm (loop.pause host summary standing) (.again summary) [] later := by
  rw [pause, if_neg (by simp [steady.lowered _ _ shows.isCalm])]
  refine .andThen_silent (.note rfl (steady.shows_fallAsleep _ shows))
    fun standing shows => ?_
  rw [if_neg (by simp [steady.lowered _ _ shows.isCalm])]
  obtain ⟨awake, wakes, shown⟩ := steady.exists_wake sleeps shows
  rw [wakes]
  exact .pure _ shown

/-- The last turn ends the run. -/
theorem yields_turn_last
    (steady : host.IsSteady reader clock calm)
    {window : Window}
    (inRange : ∀ plan ∈ loop.plans,
      Window.trailing? time.now loop.schedule.span = some window)
    {summary : Summary}
    (isLast : loop.schedule.endsAfter (summary.passes + 1) = true)
    (shows : Shows clock calm time standing.world) :
    Yields clock calm (loop.turn host summary standing)
      (.over (summary.record (loop.passReport reader (summary.passes + 1) window)))
      (loop.turnReports reader (summary.passes + 1) window) time := by
  rw [turn, if_neg (by simp [steady.lowered _ _ shows.isCalm]), runPass]
  refine .andThen (yields_runPlans steady _ inRange _ shows) fun standing shows => ?_
  refine .andThen (.report steady _ shows) fun standing shows => ?_
  simp only [Summary.record, isLast, if_true]
  exact .pure _ shows

/-- Every other turn ends with a sleep. -/
theorem yields_turn_again
    (steady : host.IsSteady reader clock calm)
    {window : Window}
    (inRange : ∀ plan ∈ loop.plans,
      Window.trailing? time.now loop.schedule.span = some window)
    {summary : Summary}
    (notLast : loop.schedule.endsAfter (summary.passes + 1) = false)
    {later : ManualClock}
    (sleeps : time.sleep? loop.schedule.interval = some later)
    (shows : Shows clock calm time standing.world) :
    Yields clock calm (loop.turn host summary standing)
      (.again (summary.record (loop.passReport reader (summary.passes + 1) window)))
      (loop.turnReports reader (summary.passes + 1) window) later := by
  rw [turn, if_neg (by simp [steady.lowered _ _ shows.isCalm]), runPass]
  refine .andThen (yields_runPlans steady _ inRange _ shows) fun standing shows => ?_
  refine .andThen (.report steady _ shows) fun standing shows => ?_
  simp only [Summary.record, notLast, Bool.false_eq_true, if_false]
  refine .andThen_silent (.enter _ shows) fun standing shows => ?_
  exact yields_pause steady _ sleeps shows

end Loop

/-! ## The time of a pass -/

/-- The window of a pass if the first pass is at `start` and every pause takes the interval;
`none` if a bound of it or the time of the pass lies outside the calendar. -/
def Schedule.windowAt?
    (schedule : Schedule)
    (start : Timestamp)
    (pass : Nat) : Option Window :=
  (start.shift? (schedule.interval.times (pass - 1))).bind fun now =>
    Window.trailing? now schedule.span

/-- What the clock shows after so many sleeps, the first one having begun at `start`. -/
structure IsAfterSleeps
    (schedule : Schedule)
    (start : Timestamp)
    (count : Nat)
    (time : ManualClock) : Prop where
  now : start.shift? (schedule.interval.times count) = some time.now
  sleeps : time.sleeps = List.replicate count schedule.interval

namespace IsAfterSleeps

variable {schedule : Schedule} {start : Timestamp} {count : Nat} {time : ManualClock}

theorem zero (schedule : Schedule) (start : Timestamp) :
    IsAfterSleeps schedule start 0 (.startingAt start) where
  now := by simp [Timestamp.shift?, Duration.times, ManualClock.startingAt]
  sleeps := rfl

/-- The window of the next pass is that of the moment. -/
theorem trailing?_now
    (after : IsAfterSleeps schedule start count time) :
    Window.trailing? time.now schedule.span = schedule.windowAt? start (count + 1) := by
  rw [Schedule.windowAt?, Nat.add_sub_cancel, after.now, Option.bind_some]

/-- A pass with a window has a time. -/
theorem exists_of_windowAt?
    {window : Window}
    (inRange : schedule.windowAt? start (count + 1) = some window) :
    ∃ time, IsAfterSleeps schedule start count time := by
  obtain ⟨now, shifted, _⟩ := Option.bind_eq_some_iff.mp inRange
  exact ⟨⟨now, List.replicate count schedule.interval⟩, shifted, rfl⟩

theorem unique
    {first second : ManualClock}
    (isFirst : IsAfterSleeps schedule start count first)
    (isSecond : IsAfterSleeps schedule start count second) :
    first = second := by
  obtain ⟨now, sleeps⟩ := first
  obtain ⟨otherNow, otherSleeps⟩ := second
  have sameNow := Option.some.inj (isFirst.now.symm.trans isSecond.now)
  have sameSleeps := isFirst.sleeps.trans isSecond.sleeps.symm
  rw [ManualClock.mk.injEq]
  exact ⟨sameNow, sameSleeps⟩

/-- A sleep leads from one pass to the next. -/
theorem sleep?_eq
    {later : ManualClock}
    (after : IsAfterSleeps schedule start count time)
    (afterLater : IsAfterSleeps schedule start (count + 1) later) :
    time.sleep? schedule.interval = some later := by
  have earlierNow := Timestamp.ofNanos?_eq_some_iff.mp after.now
  have laterNow := Timestamp.ofNanos?_eq_some_iff.mp afterLater.now
  have advances : time.now.shift? schedule.interval = some later.now := by
    refine Timestamp.ofNanos?_eq_some_iff.mpr ⟨?_, laterNow.2.trans earlierNow.2.symm⟩
    rw [laterNow.1, earlierNow.1]
    simp only [Duration.times, Int.natCast_add, Int.natCast_one, Int.add_mul, Int.one_mul,
      Int.add_assoc]
  have sleeps : time.sleeps ++ [schedule.interval] = later.sleeps := by
    rw [after.sleeps, afterLater.sleeps, List.replicate_succ']
  simp only [ManualClock.sleep?, ManualClock.advance?, ManualClock.fallAsleep, advances,
    Option.map_some, sleeps]

end IsAfterSleeps

/-! ## All passes -/

namespace Loop

variable {loop : Loop} {host : Host σ} {reader : Reader}
variable {clock : σ → ManualClock} {calm : σ → Prop}
variable {time : ManualClock} {standing : Standing σ}

/-- Turns follow each other up to the last pass that the schedule allows. -/
theorem yields_turns
    (steady : host.IsSteady reader clock calm)
    {passes : Nat}
    (bounded : loop.schedule.maxPasses = some passes)
    {start : Timestamp}
    {windows : Nat → Window}
    (inRange : ∀ pass, 1 ≤ pass → pass ≤ passes →
      loop.schedule.windowAt? start pass = some (windows pass))
    (rounds : Nat)
    {summary : Summary}
    (remaining : summary.passes + (rounds + 1) = passes)
    (after : IsAfterSleeps loop.schedule start summary.passes time)
    {last : ManualClock}
    (afterLast : IsAfterSleeps loop.schedule start (passes - 1) last)
    (shows : Shows clock calm time standing.world) :
    Yields clock calm (loop.turns host (rounds + 1) summary standing)
      (((List.range' (summary.passes + 1) (rounds + 1)).map fun pass =>
        loop.passReport reader pass (windows pass)).foldl Summary.record summary)
      ((List.range' (summary.passes + 1) (rounds + 1)).flatMap fun pass =>
        loop.turnReports reader pass (windows pass))
      last := by
  have window := after.trailing?_now
  rw [inRange _ (by omega) (by omega)] at window
  induction rounds generalizing summary time standing with
  | zero =>
      have isLast : loop.schedule.endsAfter (summary.passes + 1) = true := by
        simp only [Schedule.endsAfter, bounded, Option.any_some, decide_eq_true_eq]
        omega
      have sameCount : passes - 1 = summary.passes := by omega
      rw [sameCount] at afterLast
      rw [← after.unique afterLast]
      exact .andThen (yields_turn_last steady (fun _ _ => window) isLast shows)
        fun standing shows => .pure _ shows
  | succ rounds inductionHypothesis =>
      have notLast : loop.schedule.endsAfter (summary.passes + 1) = false := by
        simp only [Schedule.endsAfter, bounded, Option.any_some, decide_eq_false_iff_not]
        omega
      have nextInRange := inRange (summary.passes + 2) (by omega) (by omega)
      obtain ⟨later, afterLater⟩ := IsAfterSleeps.exists_of_windowAt? nextInRange
      have sleeps := after.sleep?_eq afterLater
      refine .andThen (yields_turn_again steady (fun _ _ => window) notLast sleeps
          shows)
        fun standing shows => ?_
      have remainingLater : (summary.record (loop.passReport reader (summary.passes + 1)
          (windows (summary.passes + 1)))).passes + (rounds + 1) = passes := by
        change summary.passes + 1 + (rounds + 1) = passes
        omega
      exact inductionHypothesis remainingLater afterLater shows
        (afterLater.trailing?_now.trans nextInRange)

theorem yields_finish
    (summary : Summary)
    (shows : Shows clock calm time standing.world) :
    Yields clock calm (finish summary standing) summary [] time := by
  rw [finish]
  refine .andThen_silent (.enter _ shows) fun standing shows => ?_
  exact .andThen_silent (.note rfl shows) fun standing shows => .pure _ shows

/-- A bounded run goes through all of its passes. -/
theorem yields_run
    (steady : host.IsSteady reader clock calm)
    {passes : Nat}
    (bounded : loop.schedule.maxPasses = some passes)
    (atLeastOne : 1 ≤ passes)
    {start : Timestamp}
    {windows : Nat → Window}
    (inRange : ∀ pass, 1 ≤ pass → pass ≤ passes →
      loop.schedule.windowAt? start pass = some (windows pass))
    {last : ManualClock}
    (afterLast : IsAfterSleeps loop.schedule start (passes - 1) last)
    (shows : Shows clock calm (.startingAt start) standing.world) :
    Yields clock calm (loop.run host standing)
      (((List.range' 1 passes).map fun pass =>
        loop.passReport reader pass (windows pass)).foldl Summary.record {})
      ((List.range' 1 passes).flatMap fun pass =>
        loop.turnReports reader pass (windows pass))
      last := by
  obtain ⟨rounds, rfl⟩ := Nat.exists_eq_add_of_le' atLeastOne
  have limit : loop.roundLimit = rounds + 1 := by
    simp only [roundLimit, bounded]
    omega
  rw [run, limit]
  refine .andThen_silent (.note rfl shows) fun standing shows => ?_
  have allTurns : Yields clock calm (loop.turns host (rounds + 1) {} standing) _ _ last :=
    yields_turns steady bounded inRange rounds (Nat.zero_add _) (.zero _ start) afterLast shows
  exact .andThen_of_silent allTurns fun standing shows => yields_finish _ shows

/-- A loop that has been built has valid divisors and computes the indexes of its catalog. -/
theorem exists_divisors_of_new
    {catalog : Catalog}
    {config : IndexConfig}
    {schedule : Schedule}
    (built : Loop.new catalog config schedule = .ok loop) :
    ∃ divisors, config.validDivisors = .ok divisors ∧
      loop.aggregator = Aggregator.new divisors catalog ∧
      loop.plans = plansOf config catalog ∧ loop.schedule = schedule := by
  unfold Loop.new at built
  split at built
  · cases built
  · cases valid : config.validDivisors with
    | error failure =>
        rw [valid] at built
        cases built
    | ok divisors =>
        rw [valid] at built
        cases built
        exact ⟨divisors, rfl, rfl, rfl, rfl⟩

/-- A loop that was built computes the indexes of its catalog. -/
theorem map_index_of_new
    {catalog : Catalog}
    {config : IndexConfig}
    {schedule : Schedule}
    (built : Loop.new catalog config schedule = .ok loop) :
    loop.plans.map Plan.index = catalog.indexes := by
  obtain ⟨_, _, _, plans, _⟩ := exists_divisors_of_new built
  rw [plans, plansOf, List.map_map]
  exact List.map_id _

/-- A run of a loop that may make some passes, on a steady outside whose clock does not leave
the calendar: it makes all of them. A pass reports the indexes of the catalog in ascending
order, each with the result of its computation in the window of the pass, up to the first
failure if a failure ends the pass, and then itself. -/
theorem run_of_isSteady
    {catalog : Catalog}
    {config : IndexConfig}
    {schedule : Schedule}
    (built : Loop.new catalog config schedule = .ok loop)
    (steady : host.IsSteady reader clock calm)
    {passes : Nat}
    (bounded : schedule.maxPasses = some passes)
    (atLeastOne : 1 ≤ passes)
    {start : Timestamp}
    {windows : Nat → Window}
    (inRange : ∀ pass, 1 ≤ pass → pass ≤ passes →
      schedule.windowAt? start pass = some (windows pass))
    (isCalm : calm standing.world)
    (starts : clock standing.world = .startingAt start) :
    ∃ divisors, config.validDivisors = .ok divisors ∧
      let result := fun pass index =>
        ((Aggregator.new divisors catalog).compute reader index
          (config.constituentsFor index catalog) (windows pass) schedule.reportEach).result
      let block := fun pass =>
        schedule.policy.cut
          (catalog.indexes.map fun index => Report.ofResult pass index (result pass index))
      let counts := fun pass => ({ pass } : PassReport).count schedule.policy (block pass)
      let course := loop.run host standing
      Names.Ascending catalog.indexes ∧
      course.result = .ok (((List.range' 1 passes).map counts).foldl Summary.record {}) ∧
      course.trace.reports =
        (List.range' 1 passes).flatMap (fun pass => block pass ++ [.finished (counts pass)]) ∧
      (clock course.standing.world).sleeps = List.replicate (passes - 1) schedule.interval ∧
      start.shift? (schedule.interval.times (passes - 1)) =
        some (clock course.standing.world).now := by
  obtain ⟨divisors, valid, aggregator, plans, rfl⟩ := exists_divisors_of_new built
  have lastWindow := inRange (passes - 1 + 1) (by omega) (by omega)
  obtain ⟨last, afterLast⟩ := IsAfterSleeps.exists_of_windowAt? lastWindow
  have yields := yields_run steady bounded atLeastOne inRange afterLast ⟨isCalm, starts⟩
  refine ⟨divisors, valid, catalog.ascending_group _, ?_, ?_, ?_, ?_⟩
  · rw [yields.result]
    simp only [passReport, block, reportOf, aggregator, plans, plansOf, List.map_map,
      Function.comp_def]
  · rw [yields.reports]
    simp only [turnReports, passReport, block, reportOf, aggregator, plans, plansOf,
      List.map_map, Function.comp_def]
  · rw [yields.shows.clock_eq, afterLast.sleeps]
  · rw [yields.shows.clock_eq, afterLast.now]

/-- Two passes over an index whose product has no value, with one sleep between them. -/
theorem run_of_isSteady_sample :
    let catalog := Catalog.ofGroups [(Tag.indexes, ["I"]), (Tag.products, ["A"])]
    let schedule : Schedule := { maxPasses := some 2 }
    let start : Timestamp := ⟨1772452800000000000, 0, by decide⟩
    let standing : Standing (Rehearsal.World MemoryStore) :=
      ⟨.idle, { store := .empty, clock := .startingAt start }⟩
    ∃ loop, Loop.new catalog IndexConfig.empty schedule = .ok loop ∧
      (loop.run (Rehearsal.host Rehearsal.Backend.memory {})
        standing).standing.world.clock.sleeps = [schedule.interval] := by
  intro catalog schedule start standing
  have built : Loop.new catalog IndexConfig.empty schedule =
      .ok ⟨Aggregator.new Divisors.default catalog, plansOf IndexConfig.empty catalog,
        schedule⟩ := by
    rfl
  have quiet : ({} : Rehearsal.Script MemoryStore.Change).IsQuiet := ⟨rfl, rfl, rfl⟩
  have steady := Rehearsal.isSteady_of_isQuiet quiet Rehearsal.Backend.memory .empty
  have inRange : ∀ pass, 1 ≤ pass → pass ≤ 2 → schedule.windowAt? start pass =
      some ⟨1772366399000000 + pass * 1000000, 1772452799000000 + pass * 1000000⟩ := by
    intro pass atLeast atMost
    obtain rfl | rfl : pass = 1 ∨ pass = 2 := by omega
    · decide +kernel
    · decide +kernel
  have isCalm : Rehearsal.World.IsCalm .empty standing.world := ⟨rfl, rfl, rfl, rfl⟩
  obtain ⟨divisors, _, _, _, _, sleeps, _⟩ :=
    run_of_isSteady built steady rfl (by decide) inRange isCalm rfl
  exact ⟨_, built, sleeps⟩

end Loop
end Refresh
end CompositeIndex
