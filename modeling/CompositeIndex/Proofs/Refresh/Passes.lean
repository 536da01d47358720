import CompositeIndex.Proofs.Refresh.Uninterrupted

/-!
# What a pass reports

Nothing is assumed here of the outside: it may raise the flag at any moment and refuse any
report. `Tells` says of a part of a run what its answer tells about what the part has done. An
index is reported at most once, and not at all if it is given up. A pass that returns has
reported its indexes in their order up to the one where it ended, which `Covers` describes, and
has counted them.
-/

namespace CompositeIndex
namespace Refresh

/-! ## Answers and traces -/

namespace Course

/-- An answer of a part that is put together comes from answers of its parts. -/
theorem exists_of_andThen
    {course : Course σ α}
    {next : α → Standing σ → Course σ β}
    {last : β}
    (returns : (course.andThen next).result = .ok last) :
    ∃ answer, course.result = .ok answer ∧
      (next answer course.standing).result = .ok last ∧
      (course.andThen next).trace = course.trace ++ (next answer course.standing).trace := by
  unfold andThen at returns ⊢
  cases result : course.result with
  | error reason =>
      rw [result] at returns
      cases returns
  | ok answer =>
      simp only [result] at returns
      exact ⟨answer, rfl, returns, rfl⟩

/-- If a part of a run has an answer, then the answer and what the part has done are related in
this way. -/
def Tells (course : Course σ α) (relation : α → Trace → Prop) : Prop :=
  ∀ answer, course.result = .ok answer → relation answer course.trace

section

variable {standing : Standing σ} {relation : α → Trace → Prop}

theorem tells_pure {answer : α} (related : relation answer []) :
    (pure answer standing).Tells relation := by
  rintro _ ⟨⟩
  exact related

theorem tells_halt (reason : Halt) : (halt reason standing : Course σ α).Tells relation := by
  rintro answer ⟨⟩

/-- What two parts tell is what the second one tells after the first one. -/
theorem Tells.andThen
    {course : Course σ β}
    {next : β → Standing σ → Course σ α}
    {earlier : β → Trace → Prop}
    (first : course.Tells earlier)
    (second : ∀ answer trace standing, earlier answer trace →
      (next answer standing).Tells fun last more => relation last (trace ++ more)) :
    (course.andThen next).Tells relation := by
  intro last returns
  obtain ⟨answer, answers, lastAnswers, trace⟩ := exists_of_andThen returns
  rw [trace]
  exact second answer _ _ (first answer answers) last lastAnswers

/-- A part that does a single thing puts it in front of what follows. -/
theorem tells_andThen_of_single
    {course : Course σ β}
    {activity : Activity}
    (single : course.trace = [activity])
    {next : β → Standing σ → Course σ α}
    (rest : ∀ answer standing,
      (next answer standing).Tells fun last more => relation last (activity :: more)) :
    (course.andThen next).Tells relation := by
  have only : course.Tells fun _ trace => trace = [activity] := fun _ _ => single
  refine only.andThen ?_
  rintro answer _ standing rfl
  exact rest answer standing

end

end Course

/-! ## Reports and drops -/

namespace Report

/-- The report is that of an index that was computed. -/
def isComputed : Report → Bool
  | .computed _ _ => true
  | _ => false

/-- The pass that a report is about. -/
def pass : Report → Nat
  | .computed pass _ => pass
  | .failed pass _ _ => pass
  | .finished report => report.pass

/-- The index that a report is about, unless it is about a whole pass. -/
def index? : Report → Option String
  | .computed _ value => some value.index
  | .failed _ index _ => some index
  | .finished _ => none

/-- The outcome of a pass that a report hands over. -/
def finished? : Report → Option PassReport
  | .finished report => some report
  | _ => none

end Report

/-- The index that an activity gives up, with its pass. -/
def Activity.drop? : Activity → Option (Nat × String)
  | .dropped pass index => some (pass, index)
  | _ => none

namespace Trace

/-- The indexes given up, each with its pass. -/
def drops (trace : Trace) : List (Nat × String) :=
  trace.filterMap Activity.drop?

@[simp] theorem reports_append (trace more : Trace) :
    (trace ++ more : Trace).reports = trace.reports ++ more.reports :=
  List.filterMap_append

@[simp] theorem drops_append (trace more : Trace) :
    (trace ++ more : Trace).drops = trace.drops ++ more.drops :=
  List.filterMap_append

end Trace

/-! ## One index -/

namespace Loop

/-- An index is computed under its own name. -/
theorem index_of_compute
    {aggregator : Aggregator}
    {reader : Reader}
    {index : String}
    {constituents : List String}
    {window : Window}
    {reportEach : Bool}
    {value : IndexValue}
    (computed : (aggregator.compute reader index constituents window reportEach).result =
      .ok value) :
    value.index = index := by
  unfold Aggregator.compute at computed
  split at computed
  · cases computed
  · split at computed
    · cases computed
    · cases values : Aggregator.constituentValues (takeReadings reader window constituents) with
      | error failure =>
          simp only [values] at computed
          cases computed
      | ok found =>
          simp only [values] at computed
          cases computed
          rfl

end Loop

/-- What is reported and given up when the work on an index ends. -/
inductive IsPlanEnd (pass : Nat) (index : String) :
    Loop.PlanEnd → List Report → List (Nat × String) → Prop
  | computed
      (value : IndexValue)
      (named : value.index = index) :
      IsPlanEnd pass index .computed [.computed pass value] []
  | failed
      (failure : Failure) :
      IsPlanEnd pass index .failed [.failed pass index failure] []
  /-- The flag is noticed before the work begins. -/
  | untouched :
      IsPlanEnd pass index .interrupted [] []
  /-- The flag is noticed while the index is computed. -/
  | dropped :
      IsPlanEnd pass index .interrupted [] [(pass, index)]

namespace Loop

section

variable {loop : Loop} {host : Host σ} {standing : Standing σ}

theorem tells_await (readings : List Reading) :
    (await host readings standing).Tells fun _ trace =>
      trace.reports = [] ∧ trace.drops = [] := by
  induction readings generalizing standing with
  | nil => exact Course.tells_pure ⟨rfl, rfl⟩
  | cons reading readings inductionHypothesis =>
      unfold await
      refine Course.tells_andThen_of_single rfl fun _ standing => ?_
      split
      · exact Course.tells_pure ⟨rfl, rfl⟩
      · exact Course.tells_andThen_of_single rfl fun _ standing => inductionHypothesis

/-- What the work on an index does, by its answer. -/
def PlanTells (pass : Nat) (index : String) (planEnd : PlanEnd) (trace : Trace) : Prop :=
  IsPlanEnd pass index planEnd trace.reports trace.drops

theorem tells_drop (pass : Nat) (index : String) :
    (drop pass index standing).Tells (PlanTells pass index) := by
  refine Course.tells_andThen_of_single rfl fun _ standing => ?_
  refine Course.tells_andThen_of_single rfl fun _ standing => ?_
  exact Course.tells_pure .dropped

theorem tells_conclude
    (pass : Nat)
    (index : String)
    (result : Except Failure IndexValue)
    (named : ∀ value, result = .ok value → value.index = index) :
    (conclude host pass index result standing).Tells (PlanTells pass index) := by
  cases result with
  | ok value =>
      refine Course.tells_andThen_of_single rfl fun _ standing => ?_
      exact Course.tells_pure (.computed value (named value rfl))
  | error failure =>
      refine Course.tells_andThen_of_single rfl fun _ standing => ?_
      refine Course.tells_andThen_of_single rfl fun _ standing => ?_
      exact Course.tells_pure (.failed failure)

/-- The work on an index reports it at most once, and not at all if it is given up. -/
theorem tells_runPlan (pass : Nat) (plan : Plan) :
    (loop.runPlan host pass plan standing).Tells (PlanTells pass plan.index) := by
  unfold runPlan
  split
  · refine Course.tells_andThen_of_single rfl fun _ standing => ?_
    exact Course.tells_pure .untouched
  · refine Course.tells_andThen_of_single rfl fun _ standing => ?_
    split
    · exact Course.tells_halt _
    · unfold computePlan
      split
      · exact tells_drop pass plan.index
      · refine (tells_await _).andThen ?_
        rintro isInterrupted trace standing ⟨noReports, noDrops⟩ planEnd returns
        change IsPlanEnd pass plan.index planEnd (trace ++ _ : Trace).reports
          (trace ++ _ : Trace).drops
        rw [Trace.reports_append, Trace.drops_append, noReports, noDrops]
        cases isInterrupted with
        | true => exact tells_drop pass plan.index planEnd returns
        | false =>
            exact tells_conclude pass plan.index _ (fun _ => index_of_compute) planEnd returns

end

end Loop

/-! ## One pass -/

/-- Where a pass ends. -/
inductive Ending
  /-- Behind the last index, or behind a failure that ends the pass. -/
  | whole
  /-- Between two indexes, or before the first one. -/
  | between
  /-- While an index is computed, which is given up. -/
  | within (index : String)
  deriving DecidableEq, Repr

namespace Ending

/-- What is given up at the end of a pass. -/
def drops (pass : Nat) : Ending → List (Nat × String)
  | .whole => []
  | .between => []
  | .within index => [(pass, index)]

/-- How a pass with these counts ends. -/
def passEnd (report : PassReport) : Ending → Loop.PassEnd
  | .whole => .finished report
  | .between => .interrupted report
  | .within _ => .interrupted report

theorem of_finished_eq
    {ending : Ending}
    {report counts : PassReport}
    (ends : .finished report = ending.passEnd counts) :
    ending = .whole ∧ report = counts := by
  cases ending <;> cases ends
  exact ⟨rfl, rfl⟩

theorem of_interrupted_eq
    {ending : Ending}
    {report counts : PassReport}
    (ends : .interrupted report = ending.passEnd counts) :
    ending ≠ .whole ∧ report = counts := by
  cases ending <;> cases ends <;> exact ⟨nofun, rfl⟩

end Ending

/-- What a pass over some plans reports about the indexes, depending on where it ends. -/
inductive Covers (policy : FailurePolicy) (pass : Nat) :
    List Plan → Ending → List Report → Prop
  /-- No plan is left. -/
  | done : Covers policy pass [] .whole []
  /-- The work on the next index does not begin. -/
  | interrupted (plans : List Plan) : Covers policy pass plans .between []
  /-- The work on the next index is given up. -/
  | dropped (plan : Plan) (plans : List Plan) :
      Covers policy pass (plan :: plans) (.within plan.index) []
  | computed
      {plan : Plan} {plans : List Plan} {ending : Ending} {reports : List Report}
      (value : IndexValue)
      (named : value.index = plan.index)
      (rest : Covers policy pass plans ending reports) :
      Covers policy pass (plan :: plans) ending (.computed pass value :: reports)
  | skipped
      {plan : Plan} {plans : List Plan} {ending : Ending} {reports : List Report}
      (skips : policy = .skipIndex)
      (failure : Failure)
      (rest : Covers policy pass plans ending reports) :
      Covers policy pass (plan :: plans) ending (.failed pass plan.index failure :: reports)
  /-- A failure ends the pass. -/
  | aborted
      {plan : Plan} {plans : List Plan}
      (aborts : policy = .abortPass)
      (failure : Failure) :
      Covers policy pass (plan :: plans) .whole [.failed pass plan.index failure]

namespace Covers

variable {policy : FailurePolicy} {pass : Nat} {plans : List Plan} {ending : Ending}
variable {reports : List Report}

/-- A pass reports about its own plans only. -/
theorem of_mem
    (covers : Covers policy pass plans ending reports)
    {report : Report}
    (member : report ∈ reports) :
    report.pass = pass ∧ ∃ plan ∈ plans, report.index? = some plan.index := by
  induction covers with
  | done => cases member
  | interrupted plans => cases member
  | dropped plan plans => cases member
  | computed value named rest inductionHypothesis =>
      rcases List.mem_cons.mp member with rfl | member
      · exact ⟨rfl, _, List.mem_cons_self, congrArg some named⟩
      · obtain ⟨samePass, plan, listed, about⟩ := inductionHypothesis member
        exact ⟨samePass, plan, List.mem_cons_of_mem _ listed, about⟩
  | skipped skips failure rest inductionHypothesis =>
      rcases List.mem_cons.mp member with rfl | member
      · exact ⟨rfl, _, List.mem_cons_self, rfl⟩
      · obtain ⟨samePass, plan, listed, about⟩ := inductionHypothesis member
        exact ⟨samePass, plan, List.mem_cons_of_mem _ listed, about⟩
  | aborted aborts failure =>
      rw [List.mem_singleton.mp member]
      exact ⟨rfl, _, List.mem_cons_self, rfl⟩

theorem finished?_of_mem
    (covers : Covers policy pass plans ending reports)
    {report : Report}
    (member : report ∈ reports) :
    report.finished? = none := by
  obtain ⟨_, plan, _, about⟩ := covers.of_mem member
  cases report with
  | computed pass value => rfl
  | failed pass index failure => rfl
  | finished outcome => cases about

/-- A report about an index is that of a failure or that of a value. -/
theorem countP_not_isFailure (covers : Covers policy pass plans ending reports) :
    (reports.countP fun report => !report.isFailure) = reports.countP Report.isComputed := by
  refine List.countP_congr fun report member => ?_
  have aboutIndex := covers.finished?_of_mem member
  cases report with
  | computed pass value => rfl
  | failed pass index failure => rfl
  | finished outcome => cases aboutIndex

/-- Every plan is reported by a pass that no failure ends. -/
theorem length_eq
    (covers : Covers policy pass plans .whole reports)
    (notAborted : ¬(policy = .abortPass ∧ reports.any Report.isFailure = true)) :
    reports.length = plans.length := by
  generalize isWhole : Ending.whole = ending at covers
  induction covers with
  | done => rfl
  | interrupted plans => cases isWhole
  | dropped plan plans => cases isWhole
  | computed value named rest inductionHypothesis =>
      rw [List.length_cons, List.length_cons, inductionHypothesis notAborted isWhole]
  | skipped skips failure rest inductionHypothesis =>
      rw [List.length_cons, List.length_cons, inductionHypothesis (by simp [skips]) isWhole]
  | aborted aborts failure => exact absurd ⟨aborts, rfl⟩ notAborted

/-- A failure that ends a pass is the only one, and nothing is reported after it. -/
theorem exists_of_aborted
    (covers : Covers policy pass plans ending reports)
    (aborts : policy = .abortPass)
    (fails : reports.any Report.isFailure = true) :
    ∃ values index failure, reports = values ++ [.failed pass index failure] ∧
      values.countP Report.isFailure = 0 := by
  induction covers with
  | done => cases fails
  | interrupted plans => cases fails
  | dropped plan plans => cases fails
  | computed value named rest inductionHypothesis =>
      obtain ⟨values, index, failure, rfl, none⟩ := inductionHypothesis fails
      exact ⟨.computed pass value :: values, index, failure, rfl, none⟩
  | skipped skips failure rest inductionHypothesis =>
      rw [skips] at aborts
      cases aborts
  | aborted aborts failure => exact ⟨[], _, failure, rfl, rfl⟩

/-- An index that a pass gives up is one of its plans, and not one that it has reported. -/
theorem of_mem_drops
    (covers : Covers policy pass plans ending reports)
    (distinct : (plans.map Plan.index).Nodup)
    {number : Nat}
    {index : String}
    (member : (number, index) ∈ ending.drops pass) :
    number = pass ∧ index ∈ plans.map Plan.index ∧
      ∀ report ∈ reports, report.index? ≠ some index := by
  induction covers with
  | done => cases member
  | interrupted plans => cases member
  | dropped plan plans =>
      cases List.mem_singleton.mp member
      exact ⟨rfl, List.mem_cons_self, by simp⟩
  | @computed plan plans ending reports value named rest inductionHypothesis =>
      rw [List.map_cons, List.nodup_cons] at distinct
      obtain ⟨samePass, listed, unreported⟩ := inductionHypothesis distinct.2 member
      refine ⟨samePass, List.mem_cons_of_mem _ listed, ?_⟩
      intro report member
      rcases List.mem_cons.mp member with rfl | member
      · intro same
        cases same
        exact distinct.1 (named ▸ listed)
      · exact unreported report member
  | @skipped plan plans ending reports skips failure rest inductionHypothesis =>
      rw [List.map_cons, List.nodup_cons] at distinct
      obtain ⟨samePass, listed, unreported⟩ := inductionHypothesis distinct.2 member
      refine ⟨samePass, List.mem_cons_of_mem _ listed, ?_⟩
      intro report member
      rcases List.mem_cons.mp member with rfl | member
      · intro same
        cases same
        exact distinct.1 listed
      · exact unreported report member
  | aborted aborts failure => cases member

end Covers

/-- How a pass over some plans ends, the counts so far being given, and what it has reported
about the indexes and given up. -/
structure IsPassEnd
    (policy : FailurePolicy)
    (counts : PassReport)
    (plans : List Plan)
    (ending : Ending)
    (passEnd : Loop.PassEnd)
    (trace : Trace) : Prop where
  covers : Covers policy counts.pass plans ending trace.reports
  drops : trace.drops = ending.drops counts.pass
  passEnd_eq : passEnd = ending.passEnd (counts.count policy trace.reports)

theorem IsPassEnd.of_reports_eq
    {policy : FailurePolicy}
    {counts : PassReport}
    {plans : List Plan}
    {ending : Ending}
    {passEnd : Loop.PassEnd}
    {trace : Trace}
    {reports : List Report}
    (reported : trace.reports = reports)
    (drops : trace.drops = ending.drops counts.pass)
    (covers : Covers policy counts.pass plans ending reports)
    (counted : passEnd = ending.passEnd (counts.count policy reports)) :
    IsPassEnd policy counts plans ending passEnd trace := by
  subst reported
  exact ⟨covers, drops, counted⟩

/-- What is done for the first index of a pass is put in front of what is done for the
others. -/
theorem IsPassEnd.cons
    {policy : FailurePolicy}
    {later : PassReport}
    {plans : List Plan}
    {ending : Ending}
    {passEnd : Loop.PassEnd}
    {more : Trace}
    (rest : IsPassEnd policy later plans ending passEnd more)
    (counts : PassReport)
    (samePass : later.pass = counts.pass)
    {plan : Plan}
    {report : Report}
    (covers : ∀ {reports}, Covers policy counts.pass plans ending reports →
      Covers policy counts.pass (plan :: plans) ending (report :: reports))
    (counted : ∀ reports,
      counts.count policy (report :: reports) = later.count policy reports)
    {trace : Trace}
    (reports : trace.reports = [report])
    (drops : trace.drops = []) :
    IsPassEnd policy counts (plan :: plans) ending passEnd (trace ++ more) where
  covers := by
    rw [Trace.reports_append, reports]
    exact covers (samePass ▸ rest.covers)
  drops := by
    rw [Trace.drops_append, drops, rest.drops, samePass]
    rfl
  passEnd_eq := by
    rw [rest.passEnd_eq, Trace.reports_append, reports]
    exact congrArg ending.passEnd (counted _).symm

namespace Loop

section

variable {loop : Loop} {host : Host σ} {standing : Standing σ}

/-- A pass counts what it reports about the indexes. -/
theorem tells_runPlans (plans : List Plan) (counts : PassReport) :
    (loop.runPlans host plans counts standing).Tells fun passEnd trace =>
      ∃ ending, IsPassEnd loop.schedule.policy counts plans ending passEnd trace := by
  induction plans generalizing counts standing with
  | nil =>
      exact Course.tells_pure ⟨.whole, .done, rfl, congrArg _ (counts.count_nil _).symm⟩
  | cons plan plans inductionHypothesis =>
      unfold runPlans
      refine (tells_runPlan counts.pass plan).andThen ?_
      intro planEnd trace standing isPlanEnd
      unfold PlanTells at isPlanEnd
      generalize reports : trace.reports = made at isPlanEnd
      generalize drops : trace.drops = dropped at isPlanEnd
      cases isPlanEnd with
      | untouched =>
          refine Course.tells_pure ⟨.between, ?_⟩
          rw [List.append_nil]
          exact .of_reports_eq reports drops (.interrupted _)
            (congrArg _ (counts.count_nil _).symm)
      | dropped =>
          refine Course.tells_pure ⟨.within plan.index, ?_⟩
          rw [List.append_nil]
          exact .of_reports_eq reports drops (.dropped plan plans)
            (congrArg _ (counts.count_nil _).symm)
      | computed value named =>
          intro passEnd returns
          obtain ⟨ending, isPassEnd⟩ := inductionHypothesis _ passEnd returns
          exact ⟨ending, isPassEnd.cons counts rfl (.computed value named)
            (PassReport.count_cons_of_success _ _ rfl) reports drops⟩
      | failed failure =>
          cases policy : loop.schedule.policy with
          | abortPass =>
              refine Course.tells_pure ⟨.whole, ?_⟩
              rw [List.append_nil]
              exact .of_reports_eq reports drops (.aborted rfl failure)
                (congrArg _ (counts.count_abortPass_of_failure rfl).symm)
          | skipIndex =>
              rw [policy] at inductionHypothesis
              intro passEnd returns
              obtain ⟨ending, isPassEnd⟩ := inductionHypothesis _ passEnd returns
              exact ⟨ending, isPassEnd.cons counts rfl (.skipped rfl failure)
                (PassReport.count_skipIndex_cons_of_failure _ rfl) reports drops⟩

end

end Loop

end Refresh
end CompositeIndex
