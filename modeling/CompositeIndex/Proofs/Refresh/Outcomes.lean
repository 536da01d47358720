import CompositeIndex.Proofs.Refresh.Passes

/-!
# The outcomes of passes

The reports of a run are those of whole passes, each with the outcome of the pass behind it,
and then those of a pass that was cut short (`IsAccount`). In such a sequence the passes are
numbered without gaps, and an outcome says what the other reports of its pass say.
-/

namespace CompositeIndex
namespace Refresh

/-! ## Accounts -/

/-- The outcome of a pass with these reports about the indexes. -/
def PassReport.of (policy : FailurePolicy) (pass : Nat) (reports : List Report) : PassReport :=
  ({ pass } : PassReport).count policy reports

/-- What is reported and given up from a pass on: the indexes and the outcomes of whole passes,
and then the indexes of a pass that is cut short, if there is one. -/
inductive IsAccount (policy : FailurePolicy) (plans : List Plan) :
    (pass : Nat) → List Report → (drops : List (Nat × String)) → Prop
  | last
      {pass : Nat} {ending : Ending} {reports : List Report}
      (covers : Covers policy pass plans ending reports)
      (cut : ending ≠ .whole) :
      IsAccount policy plans pass reports (ending.drops pass)
  | next
      {pass : Nat} {block reports : List Report} {drops : List (Nat × String)}
      (covers : Covers policy pass plans .whole block)
      (later : IsAccount policy plans (pass + 1) reports drops) :
      IsAccount policy plans pass (block ++ .finished (.of policy pass block) :: reports) drops

/-- Nothing is done in a pass that does not begin. -/
theorem IsAccount.nil (policy : FailurePolicy) (plans : List Plan) (pass : Nat) :
    IsAccount policy plans pass [] [] :=
  .last (.interrupted plans) nofun

/-- The outcomes of passes that are handed over, in order. -/
def passReports (reports : List Report) : List PassReport :=
  reports.filterMap Report.finished?

section

variable {policy : FailurePolicy} {pass : Nat} {plans : List Plan} {ending : Ending}
variable {block : List Report}

theorem Covers.passReports_eq_nil (covers : Covers policy pass plans ending block) :
    passReports block = [] :=
  List.filterMap_eq_nil_iff.mpr fun _ member => covers.finished?_of_mem member

theorem Covers.computed_of (covers : Covers policy pass plans ending block) :
    (PassReport.of policy pass block).computed = block.countP Report.isComputed := by
  change 0 + (block.countP fun report => !report.isFailure) = _
  rw [covers.countP_not_isFailure, Nat.zero_add]

theorem PassReport.failed_of (policy : FailurePolicy) (pass : Nat) (block : List Report) :
    (PassReport.of policy pass block).failed = block.countP Report.isFailure :=
  Nat.zero_add _

/-- The outcome of a pass stands behind the reports that it is the outcome of. -/
theorem Covers.passReports_append
    (covers : Covers policy pass plans ending block)
    (report : PassReport)
    (reports : List Report) :
    passReports (block ++ .finished report :: reports) = report :: passReports reports := by
  rw [passReports, List.filterMap_append]
  rw [show block.filterMap Report.finished? = [] from covers.passReports_eq_nil]
  rfl

end

/-! ## Reading an account -/

/-- The outcome of a pass agrees with the reports made about the indexes in this pass. -/
structure IsOutcome
    (policy : FailurePolicy)
    (indexes : Nat)
    (reports : List Report)
    (report : PassReport) : Prop where
  computed : report.computed =
    reports.countP fun other => other.isComputed && other.pass == report.pass
  failed : report.failed =
    reports.countP fun other => other.isFailure && other.pass == report.pass
  /-- Every index is counted unless a failure has ended the pass. -/
  all_of_not_aborted : report.aborted = false → report.computed + report.failed = indexes
  aborted_iff : report.aborted = true ↔
    policy = .abortPass ∧ ∃ index failure, .failed report.pass index failure ∈ reports
  /-- The failure that has ended the pass is the only one. -/
  failed_of_aborted : report.aborted = true → report.failed = 1
  /-- Nothing is reported in the pass after the failure that has ended it. -/
  last_of_aborted : report.aborted = true →
    ∃ before index failure after,
      reports = before ++ .failed report.pass index failure :: .finished report :: after ∧
        ∀ other ∈ after, other.pass ≠ report.pass

/-- The reports of a finished pass among all others. -/
structure IsPart
    (policy : FailurePolicy)
    (plans : List Plan)
    (report : PassReport)
    (before block after : List Report) : Prop where
  covers : Covers policy report.pass plans .whole block
  counts : report = .of policy report.pass block
  before_lt : ∀ other ∈ before, other.pass < report.pass
  lt_after : ∀ other ∈ after, report.pass < other.pass

namespace IsAccount

variable {policy : FailurePolicy} {pass : Nat} {plans : List Plan} {reports : List Report}
variable {drops : List (Nat × String)}

theorem le_pass_of_mem
    (account : IsAccount policy plans pass reports drops)
    {report : Report}
    (member : report ∈ reports) :
    pass ≤ report.pass := by
  induction account with
  | last covers cut => exact Nat.le_of_eq (covers.of_mem member).1.symm
  | next covers later inductionHypothesis =>
      rcases List.mem_append.mp member with inBlock | behind
      · exact Nat.le_of_eq (covers.of_mem inBlock).1.symm
      · rcases List.mem_cons.mp behind with rfl | isLater
        · exact Nat.le_refl _
        · have above := inductionHypothesis isLater
          omega

/-- Passes are numbered without gaps. -/
theorem map_pass_passReports (account : IsAccount policy plans pass reports drops) :
    (passReports reports).map PassReport.pass =
      List.range' pass (passReports reports).length := by
  induction account with
  | last covers cut =>
      rw [covers.passReports_eq_nil]
      rfl
  | next covers later inductionHypothesis =>
      rw [covers.passReports_append, List.map_cons, inductionHypothesis, List.length_cons,
        List.range'_succ]
      rfl

theorem exists_isPart
    (account : IsAccount policy plans pass reports drops)
    {report : PassReport}
    (member : .finished report ∈ reports) :
    ∃ before block after, reports = before ++ (block ++ .finished report :: after) ∧
      IsPart policy plans report before block after := by
  induction account with
  | last covers cut => cases covers.finished?_of_mem member
  | @next pass block rest drops covers later inductionHypothesis =>
      rcases List.mem_append.mp member with inBlock | behind
      · cases covers.finished?_of_mem inBlock
      · rcases List.mem_cons.mp behind with same | isLater
        · cases same
          refine ⟨[], block, rest, rfl, covers, rfl, by simp, fun other behind => ?_⟩
          exact later.le_pass_of_mem behind
        · obtain ⟨before, ownBlock, after, rfl, isPart⟩ := inductionHypothesis isLater
          refine ⟨block ++ .finished (.of policy pass block) :: before, ownBlock, after,
            by simp, isPart.covers, isPart.counts, fun other inFront => ?_, isPart.lt_after⟩
          have above : pass + 1 ≤ report.pass := later.le_pass_of_mem isLater
          rcases List.mem_append.mp inFront with inBlock | behind
          · rw [(covers.of_mem inBlock).1]
            exact above
          · rcases List.mem_cons.mp behind with rfl | between
            · exact above
            · exact isPart.before_lt other between

/-- An index that is given up is not reported in its pass. -/
theorem index?_ne_of_mem_drops
    (account : IsAccount policy plans pass reports drops)
    (distinct : (plans.map Plan.index).Nodup)
    {number : Nat}
    {index : String}
    (dropped : (number, index) ∈ drops) :
    pass ≤ number ∧
      ∀ report ∈ reports, report.pass = number → report.index? ≠ some index := by
  induction account with
  | last covers cut =>
      obtain ⟨rfl, _, unreported⟩ := covers.of_mem_drops distinct dropped
      exact ⟨Nat.le_refl _, fun report member _ => unreported report member⟩
  | next covers later inductionHypothesis =>
      obtain ⟨above, unreported⟩ := inductionHypothesis dropped
      refine ⟨by omega, fun report member samePass => ?_⟩
      rcases List.mem_append.mp member with inBlock | behind
      · have ownPass := (covers.of_mem inBlock).1
        omega
      · rcases List.mem_cons.mp behind with rfl | isLater
        · exact nofun
        · exact unreported report isLater samePass

end IsAccount

namespace IsPart

variable {policy : FailurePolicy} {plans : List Plan} {report : PassReport}
variable {before block after : List Report}

/-- To count in one pass is to count in its part of the reports. -/
theorem countP_eq
    (isPart : IsPart policy plans report before block after)
    {kind : Report → Bool}
    (ofIndex : kind (.finished report) = false) :
    ((before ++ (block ++ .finished report :: after)).countP fun other =>
        kind other && other.pass == report.pass) =
      block.countP kind := by
  have earlier : (before.countP fun other => kind other && other.pass == report.pass) = 0 := by
    refine List.countP_eq_zero.mpr fun other member => ?_
    have below := isPart.before_lt other member
    have different : other.pass ≠ report.pass := by omega
    simp [different]
  have later : (after.countP fun other => kind other && other.pass == report.pass) = 0 := by
    refine List.countP_eq_zero.mpr fun other member => ?_
    have above := isPart.lt_after other member
    have different : other.pass ≠ report.pass := by omega
    simp [different]
  have own : (block.countP fun other => kind other && other.pass == report.pass) =
      block.countP kind := by
    refine List.countP_congr fun other member => ?_
    simp [(isPart.covers.of_mem member).1]
  rw [List.countP_append, List.countP_append, List.countP_cons, earlier, later, own]
  simp [ofIndex]

theorem aborted_iff_any (isPart : IsPart policy plans report before block after) :
    report.aborted = true ↔ policy = .abortPass ∧ block.any Report.isFailure = true := by
  rw [isPart.counts]
  simp [PassReport.of, PassReport.count]

/-- A failure of the pass is in its part of the reports. -/
theorem any_isFailure_iff (isPart : IsPart policy plans report before block after) :
    block.any Report.isFailure = true ↔ ∃ index failure,
      .failed report.pass index failure ∈ before ++ (block ++ .finished report :: after) := by
  rw [List.any_eq_true]
  constructor
  · rintro ⟨other, member, fails⟩
    cases other with
    | computed pass value => cases fails
    | finished outcome => cases fails
    | failed pass index failure =>
        have samePass : pass = report.pass := (isPart.covers.of_mem member).1
        subst samePass
        exact ⟨index, failure, by simp [member]⟩
  · rintro ⟨index, failure, member⟩
    simp only [List.mem_append, List.mem_cons] at member
    rcases member with inFront | inBlock | isOutcome | behind
    · exact absurd (isPart.before_lt _ inFront) (Nat.lt_irrefl _)
    · exact ⟨_, inBlock, rfl⟩
    · cases isOutcome
    · exact absurd (isPart.lt_after _ behind) (Nat.lt_irrefl _)

theorem computed_eq (isPart : IsPart policy plans report before block after) :
    report.computed = block.countP Report.isComputed := by
  rw [isPart.counts]
  exact isPart.covers.computed_of

theorem failed_eq (isPart : IsPart policy plans report before block after) :
    report.failed = block.countP Report.isFailure := by
  rw [isPart.counts]
  exact PassReport.failed_of ..

/-- A finished pass that no failure ends has counted every plan. -/
theorem computed_add_failed
    (isPart : IsPart policy plans report before block after)
    (notAborted : report.aborted = false) :
    report.computed + report.failed = plans.length := by
  have goesThrough : ¬(policy = .abortPass ∧ block.any Report.isFailure = true) := by
    rw [← isPart.aborted_iff_any, notAborted]
    exact Bool.false_ne_true
  have all := block.length_eq_countP_add_countP Report.isFailure
  simp only [Bool.not_eq_true, Bool.decide_eq_false] at all
  rw [isPart.covers.length_eq goesThrough, isPart.covers.countP_not_isFailure] at all
  rw [isPart.computed_eq, isPart.failed_eq]
  omega

/-- The part of a pass that a failure ends consists of values and this failure. -/
theorem exists_of_aborted
    (isPart : IsPart policy plans report before block after)
    (aborted : report.aborted = true) :
    ∃ values index failure, block = values ++ [.failed report.pass index failure] ∧
      values.countP Report.isFailure = 0 := by
  obtain ⟨aborts, fails⟩ := isPart.aborted_iff_any.mp aborted
  exact isPart.covers.exists_of_aborted aborts fails

theorem isOutcome (isPart : IsPart policy plans report before block after) :
    IsOutcome policy plans.length (before ++ (block ++ .finished report :: after)) report where
  computed := by rw [isPart.countP_eq rfl, isPart.computed_eq]
  failed := by rw [isPart.countP_eq rfl, isPart.failed_eq]
  all_of_not_aborted := isPart.computed_add_failed
  aborted_iff := by rw [isPart.aborted_iff_any, isPart.any_isFailure_iff]
  failed_of_aborted := by
    intro aborted
    obtain ⟨values, index, failure, split, none⟩ := isPart.exists_of_aborted aborted
    rw [isPart.failed_eq, split, List.countP_append, none]
    rfl
  last_of_aborted := by
    intro aborted
    obtain ⟨values, index, failure, split, _⟩ := isPart.exists_of_aborted aborted
    refine ⟨before ++ values, index, failure, after, by simp [split], fun other member => ?_⟩
    exact Nat.ne_of_gt (isPart.lt_after other member)

end IsPart

end Refresh
end CompositeIndex
