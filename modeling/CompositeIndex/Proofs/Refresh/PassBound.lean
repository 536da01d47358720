import Mathlib.Data.List.Dedup
import Mathlib.Data.List.Perm.Subperm
import CompositeIndex.Proofs.Refresh.Accounts
import CompositeIndex.Refresh.Rehearsal

/-!
# The bound of the passes

A schedule can bound the number of passes. Whatever happens outside, and whether or not the run
returns, a turn reports about its own pass only, so that reports and counts stay below the
bound. The bound is looked at behind a pass, never before the first one: a run that may make no
pass at all makes one.
-/

namespace CompositeIndex
namespace Refresh

namespace Course

/-- All that a part of a run reports, even if it breaks off, is about such passes. -/
def ReportsIn (course : Course σ α) (isPass : Nat → Prop) : Prop :=
  ∀ report ∈ course.trace.reports, isPass report.pass

variable {standing : Standing σ} {isPass : Nat → Prop}

theorem reportsIn_of_silent
    {course : Course σ α}
    (silent : course.trace.reports = []) :
    course.ReportsIn isPass := by
  rw [ReportsIn, silent]
  exact fun _ => nofun

theorem reportsIn_report
    (host : Host σ)
    {report : Report}
    (inPass : isPass report.pass) :
    (Course.report host report standing).ReportsIn isPass :=
  List.forall_mem_singleton.mpr inPass

/-- The second part has to report about such passes for the answers that the first one can
give. -/
theorem ReportsIn.andThen
    {course : Course σ α}
    {next : α → Standing σ → Course σ β}
    (first : course.ReportsIn isPass)
    (second : ∀ answer, course.result = .ok answer →
      (next answer course.standing).ReportsIn isPass) :
    (course.andThen next).ReportsIn isPass := by
  unfold Course.andThen
  cases result : course.result with
  | error reason => exact first
  | ok answer =>
      intro report member
      rw [Trace.reports_append] at member
      rcases List.mem_append.mp member with early | late
      · exact first report early
      · exact second answer result report late

theorem ReportsIn.mono
    {course : Course σ α}
    {other : Nat → Prop}
    (reports : course.ReportsIn isPass)
    (implies : ∀ pass, isPass pass → other pass) :
    course.ReportsIn other :=
  fun report member => implies _ (reports report member)

/-- What follows a part has to be the same for the answers that the part can give only. -/
theorem andThen_congr
    {course : Course σ α}
    {next other : α → Standing σ → Course σ β}
    (same : ∀ answer, course.result = .ok answer →
      next answer course.standing = other answer course.standing) :
    course.andThen next = course.andThen other := by
  unfold Course.andThen
  cases result : course.result with
  | error reason => rfl
  | ok answer => simp only [same answer result]

end Course

namespace IsTurn

variable {loop : Loop} {host : Host σ} {summary : Summary} {standing : Standing σ}
variable {reports : List Report} {drops : List (Nat × String)}

/-- Another turn follows only as long as the schedule has passes left. -/
theorem passes_of_again
    {next : Summary}
    (isTurn : IsTurn loop host summary standing (.again next) reports drops) :
    next.passes = summary.passes + 1 ∧ loop.schedule.endsAfter next.passes = false := by
  cases isTurn with
  | finished lowered ends covers counts follows =>
      cases follows with
      | again goesOn => exact ⟨rfl, goesOn⟩

/-- The last turn counts at most its own pass. -/
theorem passes_le_of_over
    {final : Summary}
    (isTurn : IsTurn loop host summary standing (.over final) reports drops) :
    final.passes ≤ summary.passes + 1 := by
  cases isTurn with
  | noticed raised => exact Nat.le_succ summary.passes
  | interrupted lowered ends covers cut counts => exact Nat.le_refl _
  | finished lowered ends covers counts follows => cases follows <;> exact Nat.le_refl _

end IsTurn

namespace Loop

section

variable {loop : Loop} {host : Host σ} {standing : Standing σ} {isPass : Nat → Prop}
variable {summary : Summary}

/-! ## One turn -/

theorem reportsIn_await (readings : List Reading) :
    (await host readings standing).ReportsIn isPass := by
  induction readings generalizing standing with
  | nil => exact Course.reportsIn_of_silent rfl
  | cons reading readings inductionHypothesis =>
      unfold await
      refine (Course.reportsIn_of_silent rfl).andThen fun _ _ => ?_
      split
      · exact Course.reportsIn_of_silent rfl
      · exact (Course.reportsIn_of_silent rfl).andThen fun _ _ => inductionHypothesis

theorem reportsIn_conclude
    {pass : Nat}
    (inPass : isPass pass)
    (index : String)
    (result : Except Failure IndexValue) :
    (conclude host pass index result standing).ReportsIn isPass := by
  unfold conclude
  cases result with
  | ok value =>
      exact (Course.reportsIn_report host inPass).andThen fun _ _ =>
        Course.reportsIn_of_silent rfl
  | error failure =>
      refine (Course.reportsIn_of_silent rfl).andThen fun _ _ => ?_
      exact (Course.reportsIn_report host inPass).andThen fun _ _ =>
        Course.reportsIn_of_silent rfl

theorem reportsIn_runPlan
    {pass : Nat}
    (inPass : isPass pass)
    (plan : Plan) :
    (loop.runPlan host pass plan standing).ReportsIn isPass := by
  unfold runPlan
  split
  · exact Course.reportsIn_of_silent rfl
  · refine (Course.reportsIn_of_silent rfl).andThen fun _ _ => ?_
    split
    · exact Course.reportsIn_of_silent rfl
    · unfold computePlan
      split
      · exact Course.reportsIn_of_silent rfl
      · refine (reportsIn_await _).andThen fun isInterrupted _ => ?_
        split
        · exact Course.reportsIn_of_silent rfl
        · exact reportsIn_conclude inPass plan.index _

theorem reportsIn_runPlans
    (plans : List Plan)
    {counts : PassReport}
    (inPass : isPass counts.pass) :
    (loop.runPlans host plans counts standing).ReportsIn isPass := by
  induction plans generalizing counts standing with
  | nil => exact Course.reportsIn_of_silent rfl
  | cons plan plans inductionHypothesis =>
      unfold runPlans
      refine (reportsIn_runPlan inPass plan).andThen fun planEnd _ => ?_
      cases planEnd with
      | interrupted => exact Course.reportsIn_of_silent rfl
      | computed => exact inductionHypothesis inPass
      | failed =>
          dsimp only
          split
          · exact Course.reportsIn_of_silent rfl
          · exact inductionHypothesis inPass

theorem reportsIn_pause :
    (loop.pause host summary standing).ReportsIn isPass := by
  unfold pause
  split
  · exact Course.reportsIn_of_silent rfl
  · refine (Course.reportsIn_of_silent rfl).andThen fun _ _ => ?_
    split
    · exact Course.reportsIn_of_silent rfl
    · split
      · exact Course.reportsIn_of_silent rfl
      · exact Course.reportsIn_of_silent rfl

theorem reportsIn_closePass
    {report : PassReport}
    (inPass : isPass report.pass) :
    (loop.closePass host summary report standing).ReportsIn isPass := by
  unfold closePass
  refine (Course.reportsIn_report host inPass).andThen fun _ _ => ?_
  dsimp only
  split
  · exact Course.reportsIn_of_silent rfl
  · exact (Course.reportsIn_of_silent rfl).andThen fun _ _ => reportsIn_pause

/-- A pass that ends has the number with which it began. -/
theorem pass_of_runPass
    {pass : Nat}
    {passEnd : PassEnd}
    (ends : (loop.runPass host pass standing).result = .ok passEnd) :
    passEnd.report.pass = pass := by
  obtain ⟨ending, isPassEnd⟩ := tells_runPlans _ _ passEnd ends
  rw [isPassEnd.passEnd_eq]
  cases ending <;> rfl

/-- A turn reports about its own pass only. -/
theorem reportsIn_turn (summary : Summary) :
    (loop.turn host summary standing).ReportsIn fun pass => pass = summary.passes + 1 := by
  unfold turn
  split
  · exact Course.reportsIn_of_silent rfl
  · have pass : (loop.runPass host (summary.passes + 1) standing).ReportsIn
        fun pass => pass = summary.passes + 1 := reportsIn_runPlans loop.plans rfl
    refine pass.andThen fun passEnd ends => ?_
    have samePass := pass_of_runPass ends
    cases passEnd with
    | interrupted report => exact Course.reportsIn_of_silent rfl
    | finished report => exact reportsIn_closePass samePass

/-! ## Turn after turn -/

theorem lt_of_endsAfter
    {schedule : Schedule}
    {limit passes : Nat}
    (bounded : schedule.maxPasses = some limit)
    (goesOn : schedule.endsAfter passes = false) :
    passes < max 1 limit := by
  rw [Schedule.endsAfter, bounded, Option.any_some, decide_eq_false_iff_not] at goesOn
  omega

/-- However many turns there may be, they report about passes within the bound. -/
theorem reportsIn_turns
    {limit : Nat}
    (bounded : loop.schedule.maxPasses = some limit)
    (rounds : Nat)
    (below : summary.passes < max 1 limit) :
    (loop.turns host rounds summary standing).ReportsIn fun pass =>
      summary.passes < pass ∧ pass ≤ max 1 limit := by
  induction rounds generalizing summary standing with
  | zero => exact Course.reportsIn_of_silent rfl
  | succ rounds inductionHypothesis =>
      have turn : (loop.turn host summary standing).ReportsIn fun pass =>
          summary.passes < pass ∧ pass ≤ max 1 limit :=
        (loop.reportsIn_turn summary).mono fun pass isOwn => by omega
      refine turn.andThen fun sequel returns => ?_
      cases sequel with
      | again next =>
          obtain ⟨passes, goesOn⟩ := (tells_turn summary _ returns).passes_of_again
          refine (inductionHypothesis (lt_of_endsAfter bounded goesOn)).mono ?_
          intro pass inPass
          omega
      | _ => exact Course.reportsIn_of_silent rfl

theorem passes_le_of_turns
    {limit : Nat}
    (bounded : loop.schedule.maxPasses = some limit)
    (rounds : Nat)
    (below : summary.passes < max 1 limit)
    {final : Summary}
    (returns : (loop.turns host rounds summary standing).result = .ok final) :
    final.passes ≤ max 1 limit := by
  induction rounds generalizing summary standing with
  | zero => cases returns
  | succ rounds inductionHypothesis =>
      obtain ⟨sequel, turnReturns, rest, _⟩ := Course.exists_of_andThen returns
      cases sequel with
      | again next =>
          obtain ⟨_, goesOn⟩ := (tells_turn summary _ turnReturns).passes_of_again
          exact inductionHypothesis (lt_of_endsAfter bounded goesOn) rest
      | _ =>
          cases rest
          exact Nat.le_trans (tells_turn summary _ turnReturns).passes_le_of_over below

/-- It is the schedule that ends a run: more turns than the bound has passes would not be
taken. -/
theorem turns_eq_of_le
    {limit : Nat}
    (bounded : loop.schedule.maxPasses = some limit)
    (rounds more : Nat)
    (below : summary.passes < max 1 limit)
    (enough : max 1 limit ≤ summary.passes + rounds) :
    loop.turns host (rounds + more) summary standing =
      loop.turns host rounds summary standing := by
  induction rounds generalizing summary standing with
  | zero => omega
  | succ rounds inductionHypothesis =>
      rw [Nat.add_right_comm, turns, turns]
      refine Course.andThen_congr fun sequel returns => ?_
      cases sequel with
      | again next =>
          obtain ⟨passes, goesOn⟩ := (tells_turn summary _ returns).passes_of_again
          exact inductionHypothesis (lt_of_endsAfter bounded goesOn) (by omega)
      | _ => rfl

end

variable {loop : Loop}

/-- Whatever happens outside, and whether or not it returns, a bounded run reports about no
more passes than the bound allows, and counts no more; where the bound is zero, this is one
pass. It is the schedule that ends the run: more turns than the loop allows itself would change
nothing. -/
theorem run_of_maxPasses
    {catalog : Catalog}
    {config : IndexConfig}
    {schedule : Schedule}
    (built : Loop.new catalog config schedule = .ok loop)
    {limit : Nat}
    (bounded : schedule.maxPasses = some limit)
    (host : Host σ)
    (standing : Standing σ) :
    let course := loop.run host standing
    (∀ report ∈ course.trace.reports, 1 ≤ report.pass ∧ report.pass ≤ max 1 limit) ∧
    (course.trace.reports.map Report.pass).dedup.length ≤ max 1 limit ∧
    (∀ summary, course.result = .ok summary → summary.passes ≤ max 1 limit) ∧
    ∀ rounds, loop.roundLimit ≤ rounds →
      loop.turns host rounds {} standing = loop.turns host loop.roundLimit {} standing := by
  intro course
  obtain ⟨_, _, _, _, rfl⟩ := exists_divisors_of_new built
  have below : ({} : Summary).passes < max 1 limit :=
    Nat.lt_of_lt_of_le Nat.zero_lt_one (Nat.le_max_left 1 limit)
  have roundLimit : loop.roundLimit = max 1 limit := by rw [Loop.roundLimit, bounded]
  have inBound : course.ReportsIn fun pass => 1 ≤ pass ∧ pass ≤ max 1 limit := by
    refine (Course.reportsIn_of_silent rfl).andThen fun _ _ => ?_
    refine Course.ReportsIn.andThen ?_ fun summary _ => Course.reportsIn_of_silent rfl
    exact reportsIn_turns bounded _ below
  refine ⟨inBound, ?distinct, ?counted, ?rounds⟩
  case distinct =>
    have within : (course.trace.reports.map Report.pass).dedup ⊆ List.range' 1 (max 1 limit) := by
      intro pass member
      obtain ⟨report, reported, rfl⟩ := List.mem_map.mp (List.mem_dedup.mp member)
      obtain ⟨atLeast, atMost⟩ := inBound report reported
      exact List.mem_range'_1.mpr ⟨atLeast, by omega⟩
    have atMost := ((List.nodup_dedup _).subperm within).length_le
    rwa [List.length_range'] at atMost
  case counted =>
    intro summary returns
    obtain ⟨_, _, rest, _⟩ := Course.exists_of_andThen returns
    obtain ⟨final, turnsReturn, finishes, _⟩ := Course.exists_of_andThen rest
    cases finishes
    exact passes_le_of_turns bounded _ below turnsReturn
  case rounds =>
    intro rounds enough
    obtain ⟨more, rfl⟩ := Nat.exists_eq_add_of_le enough
    exact turns_eq_of_le bounded _ more below (by rw [roundLimit]; omega)

/-- A run over one index that may make two passes. -/
theorem run_of_maxPasses_sample :
    let catalog := Catalog.ofGroups [(Tag.indexes, ["I"]), (Tag.products, ["A"])]
    let schedule : Schedule := { maxPasses := some 2 }
    let standing : Standing (Rehearsal.World MemoryStore) :=
      ⟨.idle, { store := .empty, clock := .startingAt ⟨1772452800000000000, 0, by decide⟩ }⟩
    ∃ loop, Loop.new catalog IndexConfig.empty schedule = .ok loop ∧
      let course := loop.run (Rehearsal.host Rehearsal.Backend.memory {}) standing
      course.trace.reports.map Report.pass = [1, 1, 2, 2] ∧
      ∀ report ∈ course.trace.reports, 1 ≤ report.pass ∧ report.pass ≤ 2 := by
  intro catalog schedule standing
  have built : Loop.new catalog IndexConfig.empty schedule =
      .ok ⟨Aggregator.new Divisors.default catalog, plansOf IndexConfig.empty catalog,
        schedule⟩ := by
    rfl
  refine ⟨_, built, by decide +kernel, ?_⟩
  exact (run_of_maxPasses built rfl (Rehearsal.host Rehearsal.Backend.memory {}) standing).1

/-- A schedule with a bound of zero is accepted, and its run makes a pass. -/
theorem run_exceeds_zero :
    let catalog := Catalog.ofGroups [(Tag.indexes, ["I"]), (Tag.products, ["A"])]
    let schedule : Schedule := { maxPasses := some 0 }
    let standing : Standing (Rehearsal.World MemoryStore) :=
      ⟨.idle, { store := .empty, clock := .startingAt ⟨1772452800000000000, 0, by decide⟩ }⟩
    ∃ loop, Loop.new catalog IndexConfig.empty schedule = .ok loop ∧
      let course := loop.run (Rehearsal.host Rehearsal.Backend.memory {}) standing
      course.result = .ok { passes := 1, failed := 1 } ∧
      ¬(course.trace.reports.map Report.pass).dedup.length ≤ 0 := by
  intro catalog schedule standing
  refine ⟨⟨Aggregator.new Divisors.default catalog, plansOf IndexConfig.empty catalog,
    schedule⟩, rfl, ?_, by decide +kernel⟩
  -- without local definitions the run is evaluated
  dsimp only [catalog, schedule, standing]
  rfl

end Loop
end Refresh
end CompositeIndex
