import CompositeIndex.Proofs.Refresh.Passes
import CompositeIndex.Refresh.Rehearsal

/-!
# Where a run leaves the loop

A run that returns has stopped the loop. A report that is refused breaks the run off on the
spot: nothing follows it, and the loop stays in the phase in which it handed the report over.
`Leaves` says of a part of a run in which phase it leaves the loop, in either case; parts are put
together with one rule.
-/

namespace CompositeIndex
namespace Refresh

namespace Course

/-- In which phase a part of a run leaves the loop. If the part has an answer, the answer and the
phase are related by `post`; if a report is refused, this is the last thing that is done, and the
report and the phase are related by `handed`. -/
structure Leaves
    (course : Course σ α)
    (post : α → Phase → Prop)
    (handed : Report → Phase → Prop) : Prop where
  answered : ∀ answer, course.result = .ok answer → post answer course.standing.phase
  refused : ∀ problem, course.result = .error (.output problem) →
    ∃ before report aside, course.trace = before ++ [.reported report aside] ∧
      handed report course.standing.phase

namespace Leaves

variable {standing : Standing σ} {post : α → Phase → Prop} {handed : Report → Phase → Prop}

theorem pure {answer : α} (holds : post answer standing.phase) :
    (Course.pure answer standing).Leaves post handed where
  answered := by
    rintro _ ⟨⟩
    exact holds
  refused := nofun

/-- A part that breaks off for another reason than a refused report. -/
theorem halt
    {reason : Halt}
    (isOther : ∀ problem, reason ≠ .output problem) :
    (Course.halt reason standing).Leaves post handed where
  answered := nofun
  refused := by
    rintro problem ⟨⟩
    exact absurd rfl (isOther problem)

theorem note (activity : Activity) :
    (Course.note activity standing).Leaves (fun _ phase => phase = standing.phase) handed where
  answered := fun _ _ => rfl
  refused := nofun

theorem enter (next : Phase) :
    (Course.enter next standing).Leaves (fun _ phase => phase = next) handed where
  answered := fun _ _ => rfl
  refused := nofun

theorem report
    (host : Host σ)
    {report : Report}
    (holds : handed report standing.phase) :
    (Course.report host report standing).Leaves (fun _ phase => phase = standing.phase)
      handed where
  answered := fun _ _ => rfl
  refused := fun _ _ => ⟨[], report, _, rfl, holds⟩

theorem mono
    {course : Course σ α}
    (leaves : course.Leaves post handed)
    {weaker : α → Phase → Prop}
    (implies : ∀ answer phase, post answer phase → weaker answer phase) :
    course.Leaves weaker handed where
  answered := fun answer answered => implies _ _ (leaves.answered answer answered)
  refused := leaves.refused

/-- What follows a part begins in a phase in which that part leaves the loop. -/
theorem andThen
    {course : Course σ α}
    {earlier : α → Phase → Prop}
    (first : course.Leaves earlier handed)
    {next : α → Standing σ → Course σ β}
    {post : β → Phase → Prop}
    (second : ∀ answer standing, earlier answer standing.phase →
      (next answer standing).Leaves post handed) :
    (course.andThen next).Leaves post handed := by
  unfold Course.andThen
  cases result : course.result with
  | error reason =>
      refine ⟨nofun, fun problem refused => first.refused problem ?_⟩
      rw [result, Except.error.inj refused]
  | ok answer =>
      have rest := second answer course.standing (first.answered answer result)
      refine ⟨rest.answered, fun problem refused => ?_⟩
      obtain ⟨before, report, aside, trace, holds⟩ := rest.refused problem refused
      refine ⟨course.trace ++ before, report, aside, ?_, holds⟩
      rw [List.append_assoc, ← trace]

end Leaves
end Course

/-! ## The phase of a report -/

/-- A pass begins where the loop began, or in the sleep after the pass before it. -/
inductive BeginsIn (first : Phase) : (pass : Nat) → Phase → Prop
  | first : BeginsIn first 1 first
  | again (pass : Nat) : BeginsIn first (pass + 1) (.sleeping pass)

/-- The phase in which a report is handed over, by a loop over the given indexes that began in
the phase `first`. -/
inductive HandedIn (indexes : List String) (first : Phase) (report : Report) : Phase → Prop
  /-- An index is reported where it is computed. -/
  | index
      {index : String}
      (about : report.index? = some index) :
      HandedIn indexes first report (.computing report.pass index)
  /-- A pass is reported where its last index has been computed. -/
  | pass
      {index : String}
      (about : report.index? = none)
      (member : index ∈ indexes) :
      HandedIn indexes first report (.computing report.pass index)
  /-- A pass over no index is reported where it began. -/
  | empty
      {phase : Phase}
      (about : report.index? = none)
      (none : indexes = [])
      (begins : BeginsIn first report.pass phase) :
      HandedIn indexes first report phase

theorem BeginsIn.ne_stopped
    {first phase : Phase}
    {pass : Nat}
    (begins : BeginsIn first pass phase)
    (notStopped : first ≠ .stopped) :
    phase ≠ .stopped := by
  cases begins with
  | first => exact notStopped
  | again pass => exact nofun

/-- Nothing is reported by a loop that has stopped, unless it began like that. -/
theorem HandedIn.ne_stopped
    {indexes : List String}
    {first phase : Phase}
    {report : Report}
    (handed : HandedIn indexes first report phase)
    (notStopped : first ≠ .stopped) :
    phase ≠ .stopped := by
  cases handed with
  | index about => exact nofun
  | pass about member => exact nofun
  | empty about none begins => exact begins.ne_stopped notStopped

namespace Loop

/-- How a pass that is finished leaves the loop: at one of its indexes, or, without any, where
it began. -/
def LeftByPass (indexes : List String) (begun : Phase) (pass : Nat) : PassEnd → Phase → Prop
  | .interrupted _, _ => True
  | .finished report, phase =>
      report.pass = pass ∧
        ((∃ index ∈ indexes, phase = .computing pass index) ∨ indexes = [] ∧ phase = begun)

/-- A pass that is left well by the indexes behind its first one is left well as a whole. -/
theorem LeftByPass.behind
    {index : String}
    {others : List String}
    {begun between phase : Phase}
    {pass : Nat}
    {passEnd : PassEnd}
    (here : between = .computing pass index)
    (left : LeftByPass others between pass passEnd phase) :
    LeftByPass (index :: others) begun pass passEnd phase := by
  cases passEnd with
  | interrupted report => exact left
  | finished report =>
      obtain ⟨samePass, ⟨other, member, same⟩ | ⟨_, same⟩⟩ := left
      · exact ⟨samePass, .inl ⟨other, List.mem_cons_of_mem _ member, same⟩⟩
      · exact ⟨samePass, .inl ⟨index, List.mem_cons_self, same.trans here⟩⟩

/-- How a turn leaves the loop: if another one is to follow, asleep. -/
def LeftByTurn : Sequel → Phase → Prop
  | .over _, _ => True
  | .again summary, phase => phase = .sleeping summary.passes

section

variable {loop : Loop} {host : Host σ} {standing : Standing σ}
variable {indexes : List String} {first : Phase} {pass : Nat}

/-! ## One pass -/

theorem leaves_await
    {handed : Report → Phase → Prop}
    {phase : Phase}
    (readings : List Reading)
    (here : standing.phase = phase) :
    (await host readings standing).Leaves (fun _ later => later = phase) handed := by
  induction readings generalizing standing with
  | nil => exact .pure here
  | cons reading readings inductionHypothesis =>
      unfold await
      refine (Course.Leaves.note _).andThen fun _ later same => ?_
      have here := same.trans here
      split
      · exact .pure here
      · exact (Course.Leaves.note _).andThen fun _ last same =>
          inductionHypothesis (same.trans here)

theorem leaves_drop
    {handed : Report → Phase → Prop}
    {phase : Phase}
    (index : String)
    (here : standing.phase = phase) :
    (drop pass index standing).Leaves (fun _ later => later = phase) handed := by
  unfold drop
  refine (Course.Leaves.note _).andThen fun _ later same => ?_
  exact (Course.Leaves.note _).andThen fun _ last again => .pure (again.trans (same.trans here))

theorem leaves_conclude
    {index : String}
    {result : Except Failure IndexValue}
    (named : ∀ value, result = .ok value → value.index = index)
    (here : standing.phase = .computing pass index) :
    (conclude host pass index result standing).Leaves
      (fun _ phase => phase = .computing pass index) (HandedIn indexes first) := by
  unfold conclude
  cases result with
  | ok value =>
      have handed : HandedIn indexes first (.computed pass value) standing.phase := by
        rw [here]
        exact .index (congrArg some (named value rfl))
      exact (Course.Leaves.report host handed).andThen fun _ later same =>
        .pure (same.trans here)
  | error failure =>
      refine (Course.Leaves.note _).andThen fun _ later same => ?_
      have here := same.trans here
      have handed : HandedIn indexes first (.failed pass index failure) later.phase := by
        rw [here]
        exact .index rfl
      exact (Course.Leaves.report host handed).andThen fun _ last same =>
        .pure (same.trans here)

theorem leaves_computePlan
    {plan : Plan}
    (window : Window)
    (here : standing.phase = .computing pass plan.index) :
    (loop.computePlan host pass plan window standing).Leaves
      (fun _ phase => phase = .computing pass plan.index) (HandedIn indexes first) := by
  unfold computePlan
  split
  · exact leaves_drop plan.index here
  · refine (leaves_await _ here).andThen fun isInterrupted later here => ?_
    split
    · exact leaves_drop plan.index here
    · exact leaves_conclude (fun _ => index_of_compute) here

/-- The work on an index leaves the loop where it computes this index, unless it was not even
begun. -/
theorem leaves_runPlan (plan : Plan) :
    (loop.runPlan host pass plan standing).Leaves
      (fun planEnd phase => planEnd = .interrupted ∨ phase = .computing pass plan.index)
      (HandedIn indexes first) := by
  unfold runPlan
  split
  · exact (Course.Leaves.note _).andThen fun _ later same => .pure (.inl rfl)
  · refine (Course.Leaves.enter _).andThen fun _ later here => ?_
    split
    · exact .halt nofun
    · exact (leaves_computePlan _ here).mono fun _ _ => .inr

theorem leaves_runPlans
    (plans : List Plan)
    (counts : PassReport) :
    (loop.runPlans host plans counts standing).Leaves
      (LeftByPass (plans.map Plan.index) standing.phase counts.pass)
      (HandedIn indexes first) := by
  induction plans generalizing counts standing with
  | nil => exact .pure ⟨rfl, .inr ⟨rfl, rfl⟩⟩
  | cons plan plans inductionHypothesis =>
      unfold runPlans
      refine (leaves_runPlan plan).andThen fun planEnd later left => ?_
      cases planEnd with
      | interrupted => exact .pure trivial
      | computed =>
          exact (inductionHypothesis _).mono fun _ _ => .behind (left.resolve_left (by simp))
      | failed =>
          have here := left.resolve_left (by simp)
          cases loop.schedule.policy with
          | abortPass => exact .pure ⟨rfl, .inl ⟨plan.index, List.mem_cons_self, here⟩⟩
          | skipIndex => exact (inductionHypothesis _).mono fun _ _ => .behind here

/-! ## Pass after pass -/

theorem leaves_pause
    {handed : Report → Phase → Prop}
    {summary : Summary}
    (here : standing.phase = .sleeping summary.passes) :
    (loop.pause host summary standing).Leaves LeftByTurn handed := by
  unfold pause
  split
  · exact (Course.Leaves.note _).andThen fun _ later same => .pure trivial
  · refine (Course.Leaves.note _).andThen fun _ later same => ?_
    split
    · exact (Course.Leaves.note _).andThen fun _ last again => .pure trivial
    · split
      · exact .halt nofun
      · exact .pure (same.trans here)

theorem leaves_closePass
    {summary : Summary}
    {report : PassReport}
    (samePass : report.pass = summary.passes + 1)
    (handed : HandedIn indexes first (.finished report) standing.phase) :
    (loop.closePass host summary report standing).Leaves LeftByTurn
      (HandedIn indexes first) := by
  unfold closePass
  refine (Course.Leaves.report host handed).andThen fun _ later same => ?_
  dsimp only
  split
  · exact .pure trivial
  · rw [samePass]
    exact (Course.Leaves.enter _).andThen fun _ last here => leaves_pause here

theorem leaves_turn
    {summary : Summary}
    (begins : BeginsIn first (summary.passes + 1) standing.phase) :
    (loop.turn host summary standing).Leaves LeftByTurn
      (HandedIn (loop.plans.map Plan.index) first) := by
  unfold turn
  split
  · exact (Course.Leaves.note _).andThen fun _ later same => .pure trivial
  · refine (leaves_runPlans loop.plans _).andThen fun passEnd later left => ?_
    cases passEnd with
    | interrupted report => exact .pure trivial
    | finished report =>
        obtain ⟨samePass, place⟩ := left
        refine leaves_closePass samePass ?_
        rcases place with ⟨index, member, same⟩ | ⟨none, same⟩
        · rw [same, ← samePass]
          exact .pass rfl member
        · rw [same]
          refine .empty rfl none ?_
          change BeginsIn first report.pass standing.phase
          rw [samePass]
          exact begins

theorem leaves_turns
    (rounds : Nat)
    {summary : Summary}
    (begins : BeginsIn first (summary.passes + 1) standing.phase) :
    (loop.turns host rounds summary standing).Leaves (fun _ _ => True)
      (HandedIn (loop.plans.map Plan.index) first) := by
  induction rounds generalizing summary standing with
  | zero => exact .halt nofun
  | succ rounds inductionHypothesis =>
      unfold turns
      refine (leaves_turn begins).andThen fun sequel later left => ?_
      cases sequel with
      | again summary =>
          refine inductionHypothesis ?_
          rw [show later.phase = .sleeping summary.passes from left]
          exact .again summary.passes
      | _ => exact .pure trivial

theorem leaves_run (loop : Loop) (host : Host σ) (standing : Standing σ) :
    (loop.run host standing).Leaves (fun _ phase => phase = .stopped)
      (HandedIn (loop.plans.map Plan.index) standing.phase) := by
  unfold run
  refine (Course.Leaves.note _).andThen fun _ later same => ?_
  have begins : BeginsIn standing.phase (({} : Summary).passes + 1) later.phase := by
    rw [same]
    exact .first
  refine (leaves_turns _ begins).andThen fun summary later _ => ?_
  unfold finish
  refine (Course.Leaves.enter _).andThen fun _ last here => ?_
  exact (Course.Leaves.note _).andThen fun _ final same => .pure (same.trans here)

end

/-- Whatever happens outside: a run that returns has stopped the loop, and one that a refused
report breaks off leaves it where the report was handed over. This is never the phase in which
the loop would have stopped. -/
theorem phase_of_run (loop : Loop) (host : Host σ) (standing : Standing σ) :
    let course := loop.run host standing
    (∀ summary, course.result = .ok summary → course.standing.phase = .stopped) ∧
    (∀ problem, course.result = .error (.output problem) →
      ∃ before report aside, course.trace = before ++ [.reported report aside] ∧
        HandedIn (loop.plans.map Plan.index) standing.phase report course.standing.phase) ∧
    (standing.phase ≠ .stopped →
      ∀ problem, course.result = .error (.output problem) → course.standing.phase ≠ .stopped) := by
  intro course
  have leaves := leaves_run loop host standing
  refine ⟨leaves.answered, leaves.refused, fun notStopped problem refused => ?_⟩
  obtain ⟨_, report, _, _, handed⟩ := leaves.refused problem refused
  exact handed.ne_stopped notStopped

/-- A run over an index whose product has no value. The report of the index is refused, or that
of the pass behind it. -/
theorem run_refused_not_stopped :
    let catalog := Catalog.ofGroups [(Tag.indexes, ["I"]), (Tag.products, ["A"])]
    let schedule : Schedule := { maxPasses := some 2 }
    let start : Timestamp := ⟨1772452800000000000, 0, by decide⟩
    let standing : Standing (Rehearsal.World MemoryStore) :=
      ⟨.idle, { store := .empty, clock := .startingAt start }⟩
    let refusing (position : Nat) := Rehearsal.host Rehearsal.Backend.memory
      { hooks := [{ position, refuses := true }] }
    ∃ loop, Loop.new catalog IndexConfig.empty schedule = .ok loop ∧
      (loop.run (refusing 1) standing).result = .error (.output "stdout closed") ∧
      (loop.run (refusing 1) standing).standing.phase = .computing 1 "I" ∧
      (loop.run (refusing 2) standing).result = .error (.output "stdout closed") ∧
      (loop.run (refusing 2) standing).standing.phase = .computing 1 "I" := by
  -- without local definitions the runs are evaluated
  dsimp only
  exact ⟨_, rfl, rfl, rfl, rfl, rfl⟩

end Loop
end Refresh
end CompositeIndex
