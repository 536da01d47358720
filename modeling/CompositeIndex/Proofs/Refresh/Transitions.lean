import CompositeIndex.Proofs.Refresh.Laws

/-!
# The phases of a run

A run computes the indexes of the catalog in their order, pass after pass, and sleeps between
two passes; it may stop anywhere, and enters no phase twice. `Lawful` says this of every
activity in terms of what has been done before, `Working`, `Computing` and `Closing` are the
invariants that hold before an index, while it is computed and behind a finished pass.
-/

namespace CompositeIndex
namespace Refresh

/-! ## What may follow what -/

/-- The indexes that have been reported in a pass, in order. -/
def Past.reportedIn (past : Past) (pass : Nat) : List String :=
  (past.reports.filter fun report => report.pass = pass).filterMap Report.index?

theorem Past.reportedIn_hand (past : Past) (report : Report) (pass : Nat) :
    (past.hand report).reportedIn pass =
      past.reportedIn pass ++ if report.pass = pass then report.index?.toList else [] := by
  rw [reportedIn, hand, List.filter_append, List.filterMap_append, ← reportedIn]
  by_cases same : report.pass = pass
  · cases about : report.index? <;> simp [same, about]
  · simp [same]

/-- A pass may begin: the first one at once, and every other one out of the sleep after the
pass before it. -/
inductive MayBegin (phases : List Phase) : Nat → Prop
  | first
      (none : phases = []) :
      MayBegin phases 1
  | again
      {pass : Nat}
      (asleep : phases.getLast? = some (.sleeping pass)) :
      MayBegin phases (pass + 1)

/-- The loop is in a pass: it computes an index, or there is none and the pass may begin. -/
inductive IsIn (indexes : List String) (phases : List Phase) (pass : Nat) : Prop
  | computing
      {index : String}
      (last : phases.getLast? = some (.computing pass index))
  | empty
      (none : indexes = [])
      (begins : MayBegin phases pass)

/-- A pass is finished: all indexes have been reported in their order, or one that failed and
ended the pass. -/
inductive IsFinished
    (indexes : List String)
    (policy : FailurePolicy)
    (past : Past)
    (pass : Nat) : Prop
  | whole
      (all : past.reportedIn pass = indexes)
  | aborted
      {index : String} {failure : Failure}
      (aborts : policy = .abortPass)
      (failed : .failed pass index failure ∈ past.reports)

/-- What phase may be entered. -/
inductive MayEnter (indexes : List String) (schedule : Schedule) (past : Past) : Phase → Prop
  /-- The first index of a pass. -/
  | first
      {pass : Nat} {index : String} {others : List String}
      (begins : MayBegin past.phases pass)
      (isFirst : indexes = index :: others) :
      MayEnter indexes schedule past (.computing pass index)
  /-- The index behind the one that has been computed and reported. -/
  | next
      {pass : Nat} {before after : List String} {previous index : String}
      (computes : past.phases.getLast? = some (.computing pass previous))
      (reported : previous ∈ past.reportedIn pass)
      (follows : indexes = before ++ previous :: index :: after) :
      MayEnter indexes schedule past (.computing pass index)
  /-- The sleep after a pass that is not the last one. -/
  | sleeping
      {pass : Nat}
      (isIn : IsIn indexes past.phases pass)
      (isFinished : IsFinished indexes schedule.policy past pass)
      (goesOn : ∀ limit, schedule.maxPasses = some limit → pass < limit) :
      MayEnter indexes schedule past (.sleeping pass)
  | stopped : MayEnter indexes schedule past .stopped

/-- What a loop that began in the phase `first` may do: it leaves the phase in which it stands
for one that may be entered and has not been entered before, and reports an index only in the
phase in which this index is computed. -/
def Lawful
    (indexes : List String)
    (schedule : Schedule)
    (first : Phase)
    (past : Past) : Activity → Prop
  | .entered previous next =>
      previous = past.phase first ∧ next ∉ past.phases ∧ MayEnter indexes schedule past next
  | .reported report _ =>
      ∀ index, report.index? = some index → past.phase first = .computing report.pass index
  | _ => True

/-! ## Invariants -/

/-- The phase belongs to an earlier pass. -/
def Phase.IsBefore (pass : Nat) : Phase → Prop
  | .computing earlier _ => earlier < pass
  | .sleeping earlier => earlier < pass
  | _ => False

theorem Phase.IsBefore.mono
    {pass later : Nat}
    {phase : Phase}
    (isBefore : phase.IsBefore pass)
    (atMost : pass ≤ later) :
    phase.IsBefore later := by
  cases phase with
  | idle => exact isBefore
  | computing earlier index => exact Nat.lt_of_lt_of_le isBefore atMost
  | sleeping earlier => exact Nat.lt_of_lt_of_le isBefore atMost
  | stopped => exact isBefore

/-- Nothing is done beyond a pass, and in the pass only these indexes have been begun. -/
structure Reaches (pass : Nat) (begun : List String) (past : Past) : Prop where
  phases : ∀ phase ∈ past.phases,
    phase.IsBefore pass ∨ ∃ index ∈ begun, phase = .computing pass index
  reports : ∀ report ∈ past.reports, report.pass ≤ pass

namespace Reaches

variable {pass : Nat} {begun : List String} {past : Past}

theorem not_stopped (reaches : Reaches pass begun past) : .stopped ∉ past.phases := by
  intro member
  rcases reaches.phases _ member with isBefore | ⟨index, _, same⟩
  · exact isBefore
  · cases same

theorem not_sleeping (reaches : Reaches pass begun past) : .sleeping pass ∉ past.phases := by
  intro member
  rcases reaches.phases _ member with isBefore | ⟨index, _, same⟩
  · exact absurd isBefore (Nat.lt_irrefl pass)
  · cases same

theorem not_computing
    (reaches : Reaches pass begun past)
    {index : String}
    (isNew : index ∉ begun) :
    .computing pass index ∉ past.phases := by
  intro member
  rcases reaches.phases _ member with isBefore | ⟨other, isBegun, same⟩
  · exact absurd isBefore (Nat.lt_irrefl pass)
  · cases same
    exact isNew isBegun

theorem begin
    (reaches : Reaches pass begun past)
    (index : String) :
    Reaches pass (begun ++ [index]) (past.enter (.computing pass index)) where
  phases := by
    intro phase member
    rcases List.mem_append.mp member with isOld | isNew
    · rcases reaches.phases phase isOld with isBefore | ⟨other, isBegun, same⟩
      · exact .inl isBefore
      · exact .inr ⟨other, List.mem_append_left _ isBegun, same⟩
    · exact .inr ⟨index, List.mem_append_right _ List.mem_cons_self, List.mem_singleton.mp isNew⟩
  reports := reaches.reports

theorem hand
    (reaches : Reaches pass begun past)
    {report : Report}
    (atMost : report.pass ≤ pass) :
    Reaches pass begun (past.hand report) where
  phases := reaches.phases
  reports := by
    intro other member
    rcases List.mem_append.mp member with isOld | isNew
    · exact reaches.reports other isOld
    · rw [List.mem_singleton.mp isNew]
      exact atMost

/-- The sleep after a pass leads to the next one. -/
theorem sleep (reaches : Reaches pass begun past) :
    Reaches (pass + 1) [] (past.enter (.sleeping pass)) where
  phases := by
    intro phase member
    refine .inl ?_
    rcases List.mem_append.mp member with isOld | isNew
    · rcases reaches.phases phase isOld with isBefore | ⟨index, _, rfl⟩
      · exact isBefore.mono (Nat.le_succ pass)
      · exact Nat.lt_succ_self pass
    · rw [List.mem_singleton.mp isNew]
      exact Nat.lt_succ_self pass
  reports := fun report member => Nat.le_succ_of_le (reaches.reports report member)

/-- No index has been reported in the next pass. -/
theorem reportedIn_succ (reaches : Reaches pass begun past) : past.reportedIn (pass + 1) = [] := by
  have none : past.reports.filter (fun report => report.pass = pass + 1) = [] := by
    rw [List.filter_eq_nil_iff]
    intro report member same
    have atMost := reaches.reports report member
    have isNext := of_decide_eq_true same
    omega
  rw [Past.reportedIn, none]
  rfl

end Reaches

/-- In a pass, between two indexes: these have been reported, and nothing else has been begun. -/
structure Working (pass : Nat) (done : List String) (past : Past) : Prop where
  reaches : Reaches pass done past
  reported : past.reportedIn pass = done
  place : done = [] ∧ MayBegin past.phases pass ∨
    ∃ before index, done = before ++ [index] ∧
      past.phases.getLast? = some (.computing pass index)

/-- In a pass, at an index: those before it have been reported. -/
structure Computing (pass : Nat) (done : List String) (index : String) (past : Past) : Prop where
  reaches : Reaches pass (done ++ [index]) past
  reported : past.reportedIn pass = done
  last : past.phases.getLast? = some (.computing pass index)

/-- Behind the last index of a pass. -/
structure Closing
    (indexes : List String)
    (policy : FailurePolicy)
    (pass : Nat)
    (past : Past) : Prop where
  reaches : ∃ begun, Reaches pass begun past
  isIn : IsIn indexes past.phases pass
  isFinished : IsFinished indexes policy past pass

section

variable {indexes done : List String} {schedule : Schedule} {policy : FailurePolicy}
variable {first : Phase} {pass : Nat} {index : String} {past : Past}

theorem working_start : Working 1 [] {} where
  reaches := ⟨nofun, nofun⟩
  reported := rfl
  place := .inl ⟨rfl, .first rfl⟩

/-- The next index may be begun. -/
theorem Working.lawful
    (working : Working pass done past)
    {others : List String}
    (split : indexes = done ++ index :: others)
    (distinct : indexes.Nodup)
    (schedule : Schedule)
    (first : Phase) :
    Lawful indexes schedule first past
      (.entered (past.phase first) (.computing pass index)) := by
  refine ⟨rfl, working.reaches.not_computing ?_, ?_⟩
  · rw [split] at distinct
    exact fun isDone =>
      (List.nodup_append.mp distinct).2.2 index isDone index List.mem_cons_self rfl
  · rcases working.place with ⟨rfl, begins⟩ | ⟨before, previous, rfl, computes⟩
    · exact .first begins split
    · refine .next computes ?_ (split.trans (List.append_cons ..).symm)
      rw [working.reported]
      exact List.mem_append_right _ List.mem_cons_self

theorem Working.begin
    (working : Working pass done past)
    (index : String) :
    Computing pass done index (past.enter (.computing pass index)) where
  reaches := working.reaches.begin index
  reported := working.reported
  last := List.getLast?_concat

/-- The index that is computed may be reported. -/
theorem Computing.lawful
    (computing : Computing pass done index past)
    {report : Report}
    (samePass : report.pass = pass)
    (about : report.index? = some index)
    (aside : List LogLine) :
    Lawful indexes schedule first past (.reported report aside) := by
  intro other isAbout
  cases about.symm.trans isAbout
  rw [samePass, Past.phase, computing.last]
  rfl

theorem Computing.hand
    (computing : Computing pass done index past)
    {report : Report}
    (samePass : report.pass = pass)
    (about : report.index? = some index) :
    Working pass (done ++ [index]) (past.hand report) where
  reaches := computing.reaches.hand (Nat.le_of_eq samePass)
  reported := by
    rw [Past.reportedIn_hand, computing.reported, if_pos samePass, about]
    rfl
  place := .inr ⟨done, index, rfl, computing.last⟩

/-- A pass is finished when all indexes are done. -/
theorem Working.closing (working : Working pass indexes past) :
    Closing indexes policy pass past where
  reaches := ⟨indexes, working.reaches⟩
  isIn := by
    rcases working.place with ⟨none, begins⟩ | ⟨before, index, _, computes⟩
    · exact .empty none begins
    · exact .computing computes
  isFinished := .whole working.reported

/-- A pass is finished when a failure ends it. -/
theorem Working.closing_of_failed
    (working : Working pass (done ++ [index]) past)
    (aborts : policy = .abortPass)
    {failure : Failure}
    (failed : .failed pass index failure ∈ past.reports) :
    Closing indexes policy pass past where
  reaches := ⟨_, working.reaches⟩
  isIn := by
    rcases working.place with ⟨none, _⟩ | ⟨before, other, _, computes⟩
    · exact absurd none (List.append_ne_nil_of_right_ne_nil _ (List.cons_ne_nil _ _))
    · exact .computing computes
  isFinished := .aborted aborts failed

/-- The outcome of the pass is not about an index. -/
theorem Closing.hand
    (closing : Closing indexes policy pass past)
    {outcome : PassReport}
    (samePass : outcome.pass = pass) :
    Closing indexes policy pass (past.hand (.finished outcome)) where
  reaches := by
    obtain ⟨begun, reaches⟩ := closing.reaches
    exact ⟨begun, reaches.hand (Nat.le_of_eq samePass)⟩
  isIn := closing.isIn
  isFinished := by
    cases closing.isFinished with
    | whole all =>
        refine .whole ?_
        rw [Past.reportedIn_hand, all]
        simp [Report.index?]
    | aborted aborts failed => exact .aborted aborts (List.mem_append_left _ failed)

theorem Closing.lawful
    (closing : Closing indexes schedule.policy pass past)
    (goesOn : schedule.endsAfter pass = false)
    (first : Phase) :
    Lawful indexes schedule first past (.entered (past.phase first) (.sleeping pass)) := by
  obtain ⟨begun, reaches⟩ := closing.reaches
  refine ⟨rfl, reaches.not_sleeping, .sleeping closing.isIn closing.isFinished ?_⟩
  intro limit bounded
  rw [Schedule.endsAfter, bounded, Option.any_some, decide_eq_false_iff_not] at goesOn
  exact Nat.lt_of_not_le goesOn

/-- After the sleep the next pass may begin. -/
theorem Closing.sleep (closing : Closing indexes policy pass past) :
    Working (pass + 1) [] (past.enter (.sleeping pass)) := by
  obtain ⟨begun, reaches⟩ := closing.reaches
  exact ⟨reaches.sleep, reaches.reportedIn_succ, .inl ⟨rfl, .again List.getLast?_concat⟩⟩

end

/-! ## The loop -/

namespace Loop

/-- What the work on an index leaves behind, by its end. -/
def PlanLeaves (pass : Nat) (done : List String) (index : String) : PlanEnd → Past → Prop
  | .computed, past => Working pass (done ++ [index]) past
  | .failed, past =>
      Working pass (done ++ [index]) past ∧
        ∃ failure, .failed pass index failure ∈ past.reports
  | .interrupted, past => .stopped ∉ past.phases

/-- What a pass leaves behind, by its end. -/
def PassLeaves (indexes : List String) (policy : FailurePolicy) (pass : Nat) :
    PassEnd → Past → Prop
  | .finished report, past => report.pass = pass ∧ Closing indexes policy pass past
  | .interrupted _, past => .stopped ∉ past.phases

/-- What a turn leaves behind, by what follows it. -/
def TurnLeaves : Sequel → Past → Prop
  | .again summary, past => Working (summary.passes + 1) [] past
  | .over _, past => .stopped ∉ past.phases

section

variable {loop : Loop} {host : Host σ} {standing : Standing σ}
variable {indexes done : List String} {schedule : Schedule} {first : Phase} {past : Past}
variable {pass : Nat}

theorem obeys_await
    (readings : List Reading)
    (here : standing.phase = past.phase first) :
    (await host readings standing).Obeys (Lawful indexes schedule first) first past
      fun _ later => past = later := by
  induction readings generalizing standing with
  | nil => exact .pure here rfl
  | cons reading readings inductionHypothesis =>
      unfold await
      refine .note_andThen rfl trivial (by exact here) fun standing here => ?_
      split
      · exact .pure here rfl
      · exact .note_andThen rfl trivial here fun standing here => inductionHypothesis here

theorem obeys_drop
    {index : String}
    (computing : Computing pass done index past)
    (here : standing.phase = past.phase first) :
    (drop pass index standing).Obeys (Lawful indexes schedule first) first past
      (PlanLeaves pass done index) := by
  unfold drop
  refine .note_andThen rfl trivial here fun standing here => ?_
  refine .note_andThen rfl trivial here fun standing here => ?_
  exact .pure here computing.reaches.not_stopped

theorem obeys_conclude
    {index : String}
    (computing : Computing pass done index past)
    {result : Except Failure IndexValue}
    (named : ∀ value, result = .ok value → value.index = index)
    (here : standing.phase = past.phase first) :
    (conclude host pass index result standing).Obeys (Lawful indexes schedule first) first past
      (PlanLeaves pass done index) := by
  unfold conclude
  cases result with
  | ok value =>
      have about : (Report.computed pass value).index? = some index :=
        congrArg some (named value rfl)
      refine .report_andThen (computing.lawful rfl about) here fun standing here => ?_
      exact .pure here (computing.hand rfl about)
  | error failure =>
      refine .note_andThen rfl trivial here fun standing here => ?_
      refine .report_andThen (computing.lawful rfl rfl) here fun standing here => ?_
      refine .pure here ⟨computing.hand rfl rfl, failure, ?_⟩
      exact List.mem_append_right _ List.mem_cons_self

theorem obeys_computePlan
    {plan : Plan}
    (computing : Computing pass done plan.index past)
    (window : Window)
    (here : standing.phase = past.phase first) :
    (loop.computePlan host pass plan window standing).Obeys (Lawful indexes schedule first)
      first past (PlanLeaves pass done plan.index) := by
  unfold computePlan
  split
  · exact obeys_drop computing here
  · refine (obeys_await _ here).andThen ?_
    rintro isInterrupted _ standing here rfl
    cases isInterrupted with
    | true => exact obeys_drop computing here
    | false => exact obeys_conclude computing (fun _ => index_of_compute) here

theorem obeys_runPlan
    (working : Working pass done past)
    {plan : Plan}
    {others : List String}
    (split : indexes = done ++ plan.index :: others)
    (distinct : indexes.Nodup)
    (here : standing.phase = past.phase first) :
    (loop.runPlan host pass plan standing).Obeys (Lawful indexes schedule first)
      first past (PlanLeaves pass done plan.index) := by
  unfold runPlan
  split
  · refine .note_andThen rfl trivial here fun standing here => ?_
    exact .pure here working.reaches.not_stopped
  · have lawful := working.lawful split distinct schedule first
    rw [← here] at lawful
    refine .enter_andThen lawful fun standing here => ?_
    split
    · exact .halt _ here
    · exact obeys_computePlan (working.begin plan.index) _ here

/-- A pass goes on where it stands. -/
theorem obeys_runPlans
    (plans : List Plan)
    {counts : PassReport}
    (samePass : counts.pass = pass)
    (working : Working pass done past)
    (split : indexes = done ++ plans.map Plan.index)
    (distinct : indexes.Nodup)
    (here : standing.phase = past.phase first) :
    (loop.runPlans host plans counts standing).Obeys (Lawful indexes loop.schedule first)
      first past (PassLeaves indexes loop.schedule.policy pass) := by
  -- the indexes done grow by the one that is taken off the plans, so that both make up the catalog
  induction plans generalizing counts done past standing with
  | nil =>
      rw [List.map_nil, List.append_nil] at split
      subst split
      exact .pure here ⟨samePass, working.closing⟩
  | cons plan plans inductionHypothesis =>
      unfold runPlans
      subst samePass
      refine (obeys_runPlan working split distinct here).andThen ?_
      intro planEnd past standing here leaves
      have splitLater := split.trans (List.append_cons done plan.index _)
      cases planEnd with
      | interrupted => exact .pure here leaves
      | computed => exact inductionHypothesis rfl leaves splitLater here
      | failed =>
          obtain ⟨working, failure, failed⟩ := leaves
          dsimp only
          split
          next aborts => exact .pure here ⟨rfl, working.closing_of_failed aborts failed⟩
          next => exact inductionHypothesis rfl working splitLater here

/-- Nothing is entered while the loop pauses. -/
theorem obeys_pause
    {summary : Summary}
    (working : Working (summary.passes + 1) [] past)
    (here : standing.phase = past.phase first) :
    (loop.pause host summary standing).Obeys (Lawful indexes schedule first) first past
      TurnLeaves := by
  have notStopped := working.reaches.not_stopped
  unfold pause
  split
  · refine .note_andThen rfl trivial here fun standing here => ?_
    exact .pure here notStopped
  · refine .note_andThen rfl trivial (by exact here) fun standing here => ?_
    split
    · refine .note_andThen rfl trivial here fun standing here => ?_
      exact .pure here notStopped
    · split
      · exact .halt _ here
      · exact .pure here working

theorem obeys_closePass
    {summary : Summary}
    {report : PassReport}
    (samePass : report.pass = summary.passes + 1)
    (closing : Closing indexes loop.schedule.policy (summary.passes + 1) past)
    (here : standing.phase = past.phase first) :
    (loop.closePass host summary report standing).Obeys (Lawful indexes loop.schedule first)
      first past TurnLeaves := by
  have handed := closing.hand samePass
  unfold closePass
  refine .report_andThen (fun _ _ => nofun) here fun standing here => ?_
  dsimp only
  cases ends : loop.schedule.endsAfter (summary.record report).passes with
  | true =>
      rw [if_pos rfl]
      obtain ⟨begun, reaches⟩ := handed.reaches
      exact .pure here reaches.not_stopped
  | false =>
      rw [if_neg Bool.false_ne_true, samePass]
      have lawful := handed.lawful ends first
      rw [← here] at lawful
      exact .enter_andThen lawful fun standing here => obeys_pause handed.sleep here

/-- A turn makes one pass, which is followed by a sleep if there is to be another one. -/
theorem obeys_turn
    {summary : Summary}
    (plans : loop.plans.map Plan.index = indexes)
    (distinct : indexes.Nodup)
    (working : Working (summary.passes + 1) [] past)
    (here : standing.phase = past.phase first) :
    (loop.turn host summary standing).Obeys (Lawful indexes loop.schedule first)
      first past TurnLeaves := by
  unfold turn
  split
  · refine .note_andThen rfl trivial here fun standing here => ?_
    exact .pure here working.reaches.not_stopped
  · refine (obeys_runPlans loop.plans rfl working plans.symm distinct here).andThen ?_
    intro passEnd past standing here leaves
    cases passEnd with
    | interrupted report => exact .pure here leaves
    | finished report => exact obeys_closePass leaves.1 leaves.2 here

theorem obeys_turns
    (rounds : Nat)
    {summary : Summary}
    (plans : loop.plans.map Plan.index = indexes)
    (distinct : indexes.Nodup)
    (working : Working (summary.passes + 1) [] past)
    (here : standing.phase = past.phase first) :
    (loop.turns host rounds summary standing).Obeys (Lawful indexes loop.schedule first)
      first past fun _ later => .stopped ∉ later.phases := by
  induction rounds generalizing summary past standing with
  | zero => exact .halt _ here
  | succ rounds inductionHypothesis =>
      unfold turns
      refine (obeys_turn plans distinct working here).andThen ?_
      intro sequel past standing here leaves
      cases sequel with
      | again summary => exact inductionHypothesis leaves here
      | _ => exact .pure here leaves

/-- A run is lawful from its beginning, and stopped at its end. -/
theorem obeys_run
    (plans : loop.plans.map Plan.index = indexes)
    (distinct : indexes.Nodup)
    (host : Host σ)
    (standing : Standing σ) :
    (loop.run host standing).Obeys (Lawful indexes loop.schedule standing.phase)
      standing.phase {} fun _ later =>
        ∃ phases, later.phases = phases ++ [.stopped] ∧ .stopped ∉ phases := by
  unfold run
  refine .note_andThen rfl trivial rfl fun later here => ?_
  refine (obeys_turns _ plans distinct working_start here).andThen ?_
  intro summary past later here notStopped
  unfold finish
  refine .enter_andThen ⟨here, notStopped, .stopped⟩ fun later here => ?_
  refine .note_andThen rfl trivial here fun later here => ?_
  exact .pure here ⟨past.phases, rfl, notStopped⟩

/-- Whatever happens outside, all that a run does is lawful: it moves through the indexes, the
sleeps and the passes only in their order, and reports an index where it stands. A run that
returns has stopped, just once and at last. -/
theorem run_isLawful
    {catalog : Catalog}
    {config : IndexConfig}
    (built : Loop.new catalog config schedule = .ok loop)
    (host : Host σ)
    (standing : Standing σ) :
    let course := loop.run host standing
    (∀ (before : Trace) activity after, course.trace = before ++ activity :: after →
      Lawful catalog.indexes schedule standing.phase before.past activity) ∧
    ∀ summary, course.result = .ok summary →
      course.standing.phase = .stopped ∧
        ∃ phases, course.trace.phases = phases ++ [.stopped] ∧ .stopped ∉ phases := by
  intro course
  obtain ⟨divisors, _, _, isPlans, rfl⟩ := exists_divisors_of_new built
  have plans : loop.plans.map Plan.index = catalog.indexes := by
    rw [isPlans, plansOf, List.map_map]
    exact List.map_id _
  have distinct : catalog.indexes.Nodup := (catalog.ascending_group Tag.indexes).nodup
  have obeys := obeys_run plans distinct host standing
  refine ⟨?_, ?_⟩
  · intro before activity after split
    rw [← Trace.after_past]
    exact obeys.lawful before activity after split
  · intro summary returns
    obtain ⟨phases, entered, notStopped⟩ := obeys.post summary returns
    have isLast := obeys.phase
    rw [Trace.after_past] at entered isLast
    exact ⟨isLast.trans (by simp [Past.phase, entered]), phases, entered, notStopped⟩

/-- Two passes over two indexes without constituents. -/
theorem run_isLawful_sample :
    let catalog := Catalog.ofGroups [(Tag.indexes, ["J", "I"])]
    let schedule : Schedule := { maxPasses := some 2 }
    let standing : Standing (Rehearsal.World MemoryStore) :=
      ⟨.idle, { store := .empty, clock := .startingAt ⟨1772452800000000000, 0, by decide⟩ }⟩
    ∃ loop, Loop.new catalog IndexConfig.empty schedule = .ok loop ∧
      let course := loop.run (Rehearsal.host Rehearsal.Backend.memory {}) standing
      course.trace.phases = [.computing 1 "I", .computing 1 "J", .sleeping 1, .computing 2 "I",
          .computing 2 "J", .stopped] ∧
        course.standing.phase = .stopped ∧
        ∀ (before : Trace) activity after, course.trace = before ++ activity :: after →
          Lawful catalog.indexes schedule .idle before.past activity := by
  intro catalog schedule standing
  have built : Loop.new catalog IndexConfig.empty schedule =
      .ok ⟨Aggregator.new Divisors.default catalog, plansOf IndexConfig.empty catalog,
        schedule⟩ := by
    rfl
  obtain ⟨lawful, stops⟩ :=
    run_isLawful built (Rehearsal.host Rehearsal.Backend.memory {}) standing
  refine ⟨_, built, ?_, ?_, lawful⟩
  -- without local definitions the run is evaluated
  · dsimp only [catalog, schedule, standing]
    rfl
  · refine (stops { passes := 2, failed := 4 } ?_).1
    dsimp only [catalog, schedule, standing]
    rfl

end

end Loop

end Refresh
end CompositeIndex
