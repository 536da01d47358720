import CompositeIndex.Proofs.Refresh.Outcomes

/-!
# The counts of a run

A turn of the loop ends the run or leads to the next turn. Either way the counts grow by those
of the pass that the turn has made, if it has made one. Summed up over the turns, the counts of
a run are those of all that it has reported.
-/

namespace CompositeIndex
namespace Refresh

/-! ## Turns -/

@[simp] theorem Summary.cancelled_record (summary : Summary) (report : PassReport) :
    (summary.record report).cancelled = summary.cancelled := rfl

/-- What can follow a finished pass, the counts including it being given. -/
inductive IsSequel (schedule : Schedule) (summary : Summary) : Loop.Sequel → Prop
  | last (ends : schedule.endsAfter summary.passes = true) :
      IsSequel schedule summary (.over summary)
  | cancelled (goesOn : schedule.endsAfter summary.passes = false) :
      IsSequel schedule summary (.over summary.cancel)
  | again (goesOn : schedule.endsAfter summary.passes = false) :
      IsSequel schedule summary (.again summary)

/-- How a turn ends, and what it reports and gives up. -/
inductive IsTurn (loop : Loop) (host : Host σ) (summary : Summary) (standing : Standing σ) :
    Loop.Sequel → List Report → List (Nat × String) → Prop
  /-- The flag is raised already. -/
  | noticed
      (raised : host.isRaised .passStart standing.world = true) :
      IsTurn loop host summary standing (.over summary.cancel) [] []
  /-- The pass is cut short. -/
  | interrupted
      {ending : Ending} {block : List Report} {report : PassReport}
      (lowered : host.isRaised .passStart standing.world = false)
      (ends : (loop.runPass host (summary.passes + 1) standing).result =
        .ok (.interrupted report))
      (covers : Covers loop.schedule.policy (summary.passes + 1) loop.plans ending block)
      (cut : ending ≠ .whole)
      (counts : report = .of loop.schedule.policy (summary.passes + 1) block) :
      IsTurn loop host summary standing (.over (summary.record report).cancel) block
        (ending.drops (summary.passes + 1))
  /-- The pass is finished. -/
  | finished
      {block : List Report} {report : PassReport} {sequel : Loop.Sequel}
      (lowered : host.isRaised .passStart standing.world = false)
      (ends : (loop.runPass host (summary.passes + 1) standing).result =
        .ok (.finished report))
      (covers : Covers loop.schedule.policy (summary.passes + 1) loop.plans .whole block)
      (counts : report = .of loop.schedule.policy (summary.passes + 1) block)
      (follows : IsSequel loop.schedule (summary.record report) sequel) :
      IsTurn loop host summary standing sequel (block ++ [.finished report]) []

/-- A run that goes on is not cancelled in the meantime. -/
theorem IsTurn.cancelled_of_again
    {loop : Loop}
    {host : Host σ}
    {summary next : Summary}
    {standing : Standing σ}
    {reports : List Report}
    {drops : List (Nat × String)}
    (isTurn : IsTurn loop host summary standing (.again next) reports drops) :
    next.cancelled = summary.cancelled := by
  cases isTurn with
  | finished lowered ends covers counts follows =>
      cases follows with
      | again goesOn => rfl

namespace Loop

section

variable {loop : Loop} {host : Host σ} {standing : Standing σ}

theorem tells_pause
    {summary : Summary}
    (goesOn : loop.schedule.endsAfter summary.passes = false) :
    (loop.pause host summary standing).Tells fun sequel trace =>
      IsSequel loop.schedule summary sequel ∧ trace.reports = [] ∧ trace.drops = [] := by
  unfold pause
  split
  · refine Course.tells_andThen_of_single rfl fun _ standing => ?_
    exact Course.tells_pure ⟨.cancelled goesOn, rfl, rfl⟩
  · refine Course.tells_andThen_of_single rfl fun _ standing => ?_
    split
    · refine Course.tells_andThen_of_single rfl fun _ standing => ?_
      exact Course.tells_pure ⟨.cancelled goesOn, rfl, rfl⟩
    · split
      · exact Course.tells_halt _
      · exact Course.tells_pure ⟨.again goesOn, rfl, rfl⟩

theorem tells_closePass (summary : Summary) (report : PassReport) :
    (loop.closePass host summary report standing).Tells fun sequel trace =>
      IsSequel loop.schedule (summary.record report) sequel ∧
        trace.reports = [.finished report] ∧ trace.drops = [] := by
  refine Course.tells_andThen_of_single rfl fun _ standing => ?_
  dsimp only
  cases ends : loop.schedule.endsAfter (summary.record report).passes with
  | true =>
      rw [if_pos rfl]
      exact Course.tells_pure ⟨.last ends, rfl, rfl⟩
  | false =>
      rw [if_neg Bool.false_ne_true]
      refine Course.tells_andThen_of_single rfl fun _ standing => ?_
      intro sequel returns
      obtain ⟨isSequel, noReports, noDrops⟩ := tells_pause ends sequel returns
      exact ⟨isSequel, congrArg (Report.finished report :: ·) noReports, noDrops⟩

theorem tells_turn (summary : Summary) :
    (loop.turn host summary standing).Tells fun sequel trace =>
      IsTurn loop host summary standing sequel trace.reports trace.drops := by
  unfold turn
  cases raised : host.isRaised .passStart standing.world with
  | true =>
      rw [if_pos rfl]
      refine Course.tells_andThen_of_single rfl fun _ _ => ?_
      exact Course.tells_pure (.noticed raised)
  | false =>
      rw [if_neg Bool.false_ne_true]
      have pass : (loop.runPass host (summary.passes + 1) standing).Tells
          fun passEnd trace =>
            (loop.runPass host (summary.passes + 1) standing).result = .ok passEnd ∧
              ∃ ending, IsPassEnd loop.schedule.policy { pass := summary.passes + 1 } loop.plans
                ending passEnd trace :=
        fun passEnd returns => ⟨returns, tells_runPlans _ _ passEnd returns⟩
      refine pass.andThen ?_
      rintro passEnd trace later ⟨ends, ending, isPassEnd⟩
      cases passEnd with
      | interrupted report =>
          obtain ⟨cut, counts⟩ := Ending.of_interrupted_eq isPassEnd.passEnd_eq
          refine Course.tells_pure ?_
          rw [List.append_nil, isPassEnd.drops]
          exact .interrupted raised ends isPassEnd.covers cut counts
      | finished report =>
          obtain ⟨rfl, counts⟩ := Ending.of_finished_eq isPassEnd.passEnd_eq
          intro sequel returns
          obtain ⟨isSequel, reports, drops⟩ := tells_closePass summary report sequel returns
          rw [Trace.reports_append, Trace.drops_append, isPassEnd.drops]
          rw [reports, drops]
          exact .finished raised ends isPassEnd.covers counts isSequel

end

/-! ## Passes that are cut short -/

/-- From this turn on, the pass of this number is begun and then cut short by the flag. -/
inductive CutsShort (loop : Loop) (host : Host σ) : Summary → Standing σ → (pass : Nat) → Prop
  /-- It is the pass of this turn. -/
  | here
      {summary : Summary} {standing : Standing σ} {report : PassReport}
      (lowered : host.isRaised .passStart standing.world = false)
      (ends : (loop.runPass host (summary.passes + 1) standing).result =
        .ok (.interrupted report)) :
      CutsShort loop host summary standing (summary.passes + 1)
  /-- It is the pass of a later turn. -/
  | later
      {summary next : Summary} {standing : Standing σ} {pass : Nat}
      (goesOn : (loop.turn host summary standing).result = .ok (.again next))
      (rest : CutsShort loop host next (loop.turn host summary standing).standing pass) :
      CutsShort loop host summary standing pass

section

variable {loop : Loop} {host : Host σ} {summary : Summary} {standing : Standing σ}
variable {pass : Nat}

/-- A turn that sets out with a raised flag makes no pass. -/
theorem not_cutsShort_of_raised
    (raised : host.isRaised .passStart standing.world = true) :
    ¬loop.CutsShort host summary standing pass := by
  have isOver : (loop.turn host summary standing).result = .ok (.over summary.cancel) := by
    rw [turn, if_pos raised]
    rfl
  rintro (⟨lowered, _⟩ | ⟨goesOn, _⟩)
  · rw [raised] at lowered
    cases lowered
  · rw [isOver] at goesOn
    cases goesOn

/-- If the pass of a turn is cut short, then no other one is. -/
theorem cutsShort_iff_of_interrupted
    {report : PassReport}
    (lowered : host.isRaised .passStart standing.world = false)
    (ends : (loop.runPass host (summary.passes + 1) standing).result =
      .ok (.interrupted report)) :
    loop.CutsShort host summary standing pass ↔ pass = summary.passes + 1 := by
  constructor
  · rintro (⟨_, _⟩ | ⟨goesOn, _⟩)
    · rfl
    · rw [turn, if_neg (by simp [lowered]), Course.andThen, ends] at goesOn
      cases goesOn
  · rintro rfl
    exact .here lowered ends

/-- If the pass of a turn is finished, only a later turn can have its pass cut short. -/
theorem cutsShort_iff_of_finished
    {report : PassReport}
    (ends : (loop.runPass host (summary.passes + 1) standing).result = .ok (.finished report)) :
    loop.CutsShort host summary standing pass ↔
      ∃ next, (loop.turn host summary standing).result = .ok (.again next) ∧
        loop.CutsShort host next (loop.turn host summary standing).standing pass := by
  constructor
  · rintro (⟨_, cut⟩ | ⟨goesOn, rest⟩)
    · rw [ends] at cut
      cases cut
    · exact ⟨_, goesOn, rest⟩
  · rintro ⟨next, goesOn, rest⟩
    exact .later goesOn rest

end

end Loop

/-! ## Counts from a turn on -/

/-- How the counts at the end of a run are related to the counts at a turn of it and to what is
reported and given up from this turn on. -/
structure Tallies
    (loop : Loop)
    (host : Host σ)
    (summary : Summary)
    (standing : Standing σ)
    (final : Summary)
    (reports : List Report)
    (drops : List (Nat × String)) : Prop where
  account : IsAccount loop.schedule.policy loop.plans (summary.passes + 1) reports drops
  computed : final.computed = summary.computed + reports.countP Report.isComputed
  failed : final.failed = summary.failed + reports.countP Report.isFailure
  cut : ∀ pass, loop.CutsShort host summary standing pass →
    final.passes = pass ∧ pass = summary.passes + (passReports reports).length + 1
  notCut : (∀ pass, ¬loop.CutsShort host summary standing pass) →
    final.passes = summary.passes + (passReports reports).length
  /-- The run is cancelled unless it has finished as many passes as it may. -/
  complete_iff : final.cancelled = false ↔
    passReports reports ≠ [] ∧
      loop.schedule.endsAfter (summary.passes + (passReports reports).length) = true

namespace Tallies

variable {loop : Loop} {host : Host σ} {summary : Summary} {standing : Standing σ}
variable {block reports : List Report} {drops : List (Nat × String)}
variable {report : PassReport} {final : Summary}

theorem of_noticed
    (raised : host.isRaised .passStart standing.world = true) :
    Tallies loop host summary standing summary.cancel [] [] where
  account := .nil ..
  computed := rfl
  failed := rfl
  cut := fun _ cut => absurd cut (Loop.not_cutsShort_of_raised raised)
  notCut := fun _ => rfl
  complete_iff := by simp [passReports, Summary.cancel]

theorem of_interrupted
    {ending : Ending}
    (lowered : host.isRaised .passStart standing.world = false)
    (ends : (loop.runPass host (summary.passes + 1) standing).result =
      .ok (.interrupted (.of loop.schedule.policy (summary.passes + 1) block)))
    (covers : Covers loop.schedule.policy (summary.passes + 1) loop.plans ending block)
    (isCut : ending ≠ .whole) :
    Tallies loop host summary standing
      (summary.record (.of loop.schedule.policy (summary.passes + 1) block)).cancel block
      (ending.drops (summary.passes + 1)) where
  account := .last covers isCut
  computed := by rw [← covers.computed_of]; rfl
  failed := by rw [← PassReport.failed_of]; rfl
  cut := by
    intro pass cut
    rw [Loop.cutsShort_iff_of_interrupted lowered ends] at cut
    rw [cut, covers.passReports_eq_nil]
    exact ⟨rfl, rfl⟩
  notCut := fun notCut => absurd (.here lowered ends) (notCut _)
  complete_iff := by simp [covers.passReports_eq_nil, Summary.cancel]

/-- A finished pass is put in front of what follows it. -/
theorem of_finished
    (covers : Covers loop.schedule.policy (summary.passes + 1) loop.plans .whole block)
    (counts : report = .of loop.schedule.policy (summary.passes + 1) block)
    (account : IsAccount loop.schedule.policy loop.plans (summary.passes + 2) reports drops)
    (computed : final.computed =
      (summary.record report).computed + reports.countP Report.isComputed)
    (failed : final.failed = (summary.record report).failed + reports.countP Report.isFailure)
    (cut : ∀ pass, loop.CutsShort host summary standing pass →
      final.passes = pass ∧
        pass = (summary.record report).passes + (passReports reports).length + 1)
    (notCut : (∀ pass, ¬loop.CutsShort host summary standing pass) →
      final.passes = (summary.record report).passes + (passReports reports).length)
    (complete_iff : final.cancelled = false ↔ loop.schedule.endsAfter
      ((summary.record report).passes + (passReports reports).length) = true) :
    Tallies loop host summary standing final (block ++ .finished report :: reports) drops := by
  subst counts
  have length : (passReports (block ++ .finished (.of loop.schedule.policy (summary.passes + 1)
      block) :: reports)).length = (passReports reports).length + 1 := by
    rw [covers.passReports_append, List.length_cons]
  have samePasses : (summary.record (.of loop.schedule.policy (summary.passes + 1)
      block)).passes + (passReports reports).length =
        summary.passes + ((passReports reports).length + 1) := by
    simp only [Summary.record]
    omega
  refine ⟨.next covers account, ?computed, ?failed, ?cut, ?notCut, ?complete⟩
  case computed =>
    rw [computed, List.countP_append, List.countP_cons, ← covers.computed_of]
    exact Nat.add_assoc ..
  case failed =>
    rw [failed, List.countP_append, List.countP_cons,
      ← PassReport.failed_of loop.schedule.policy (summary.passes + 1) block]
    exact Nat.add_assoc ..
  case cut =>
    intro pass isCut
    rw [length, ← samePasses]
    exact cut pass isCut
  case notCut =>
    intro neverCut
    rw [length, ← samePasses]
    exact notCut neverCut
  case complete =>
    rw [complete_iff, samePasses, length, covers.passReports_append]
    simp

/-- The turn of a finished pass is the last one. -/
theorem of_over
    (ends : (loop.runPass host (summary.passes + 1) standing).result = .ok (.finished report))
    (covers : Covers loop.schedule.policy (summary.passes + 1) loop.plans .whole block)
    (counts : report = .of loop.schedule.policy (summary.passes + 1) block)
    (isOver : (loop.turn host summary standing).result = .ok (.over final))
    (computed : final.computed = (summary.record report).computed)
    (failed : final.failed = (summary.record report).failed)
    (passes : final.passes = (summary.record report).passes)
    (complete_iff : final.cancelled = false ↔
      loop.schedule.endsAfter (summary.record report).passes = true) :
    Tallies loop host summary standing final (block ++ [.finished report]) [] := by
  have neverCut : ∀ pass, ¬loop.CutsShort host summary standing pass := by
    intro pass cut
    obtain ⟨next, goesOn, _⟩ := (Loop.cutsShort_iff_of_finished ends).mp cut
    rw [isOver] at goesOn
    cases goesOn
  exact of_finished covers counts (.nil ..) computed failed
    (fun pass cut => absurd cut (neverCut pass)) (fun _ => passes) complete_iff

/-- The turn of a finished pass is followed by another turn. -/
theorem of_again
    (ends : (loop.runPass host (summary.passes + 1) standing).result = .ok (.finished report))
    (covers : Covers loop.schedule.policy (summary.passes + 1) loop.plans .whole block)
    (counts : report = .of loop.schedule.policy (summary.passes + 1) block)
    (goesOn : loop.schedule.endsAfter (summary.record report).passes = false)
    (again : (loop.turn host summary standing).result = .ok (.again (summary.record report)))
    (later : Tallies loop host (summary.record report)
      (loop.turn host summary standing).standing final reports drops) :
    Tallies loop host summary standing final (block ++ .finished report :: reports) drops := by
  have cut_iff : ∀ pass, loop.CutsShort host summary standing pass ↔
      loop.CutsShort host (summary.record report) (loop.turn host summary standing).standing
        pass := by
    intro pass
    rw [Loop.cutsShort_iff_of_finished ends]
    constructor
    · rintro ⟨next, sameTurn, cut⟩
      rw [again] at sameTurn
      cases sameTurn
      exact cut
    · intro cut
      exact ⟨_, again, cut⟩
  refine of_finished covers counts later.account later.computed later.failed ?_ ?_ ?_
  · exact fun pass cut => later.cut pass ((cut_iff pass).mp cut)
  · exact fun notCut => later.notCut fun pass cut => notCut pass ((cut_iff pass).mpr cut)
  · rw [later.complete_iff]
    refine ⟨fun complete => complete.2, fun complete => ⟨?_, complete⟩⟩
    intro empty
    rw [empty, List.length_nil, Nat.add_zero, goesOn] at complete
    cases complete

/-- A turn that ends the run. -/
theorem of_isTurn_over
    (going : summary.cancelled = false)
    (isOver : (loop.turn host summary standing).result = .ok (.over final))
    (isTurn : IsTurn loop host summary standing (.over final) reports drops) :
    Tallies loop host summary standing final reports drops := by
  cases isTurn with
  | noticed raised => exact .of_noticed raised
  | interrupted lowered ends covers cut counts =>
      subst counts
      exact .of_interrupted lowered ends covers cut
  | finished lowered ends covers counts follows =>
      cases follows with
      | last isLast =>
          exact .of_over ends covers counts isOver rfl rfl rfl (by simp [going, isLast])
      | cancelled goesOn =>
          exact .of_over ends covers counts isOver rfl rfl rfl (by simp [goesOn, Summary.cancel])

/-- A turn that another turn follows. -/
theorem of_isTurn_again
    {next : Summary}
    {dropped : List (Nat × String)}
    (again : (loop.turn host summary standing).result = .ok (.again next))
    (isTurn : IsTurn loop host summary standing (.again next) block dropped)
    (later : Tallies loop host next (loop.turn host summary standing).standing final reports
      drops) :
    Tallies loop host summary standing final (block ++ reports) (dropped ++ drops) := by
  cases isTurn with
  | finished lowered ends covers counts follows =>
      cases follows with
      | again goesOn =>
          rw [List.append_assoc]
          exact of_again ends covers counts goesOn again later

end Tallies

/-! ## A whole run -/

/-- The counts of a run, and the outcomes of its passes, agree with what it has reported. -/
structure AgreesWith
    (policy : FailurePolicy)
    (indexes : Nat)
    (reports : List Report)
    (isCut : Nat → Prop)
    (summary : Summary) : Prop where
  computed : summary.computed = reports.countP Report.isComputed
  failed : summary.failed = reports.countP Report.isFailure
  outcomes : ∀ report, .finished report ∈ reports →
    IsOutcome policy indexes reports report
  /-- The passes that are finished are numbered from one without gaps. -/
  numbers : (passReports reports).map PassReport.pass =
    List.range' 1 (passReports reports).length
  /-- A pass that was cut short is the one behind them, and it counts as well. -/
  cut : ∀ pass, isCut pass →
    pass = (passReports reports).length + 1 ∧
      summary.passes = (passReports reports).length + 1
  notCut : (∀ pass, ¬isCut pass) → summary.passes = (passReports reports).length

namespace Loop

section

variable {loop : Loop} {host : Host σ} {summary : Summary} {standing : Standing σ}

theorem turns_of_over
    {final : Summary}
    (isOver : (loop.turn host summary standing).result = .ok (.over final))
    (rounds : Nat) :
    loop.turns host (rounds + 1) summary standing =
      ⟨.ok final, (loop.turn host summary standing).standing,
        (loop.turn host summary standing).trace⟩ := by
  rw [turns, Course.andThen, isOver]
  simp [Course.pure]

theorem turns_of_again
    {next : Summary}
    (again : (loop.turn host summary standing).result = .ok (.again next))
    (rounds : Nat) :
    let rest := loop.turns host rounds next (loop.turn host summary standing).standing
    loop.turns host (rounds + 1) summary standing =
      ⟨rest.result, rest.standing, (loop.turn host summary standing).trace ++ rest.trace⟩ := by
  rw [turns, Course.andThen, again]

/-- The counts at the end of the turns are those at their start and those of what they
report. -/
theorem tallies_turns
    (rounds : Nat)
    (going : summary.cancelled = false) :
    (loop.turns host rounds summary standing).Tells fun final trace =>
      Tallies loop host summary standing final trace.reports trace.drops := by
  induction rounds generalizing summary standing with
  | zero => exact Course.tells_halt _
  | succ rounds inductionHypothesis =>
      intro final returns
      obtain ⟨sequel, turnReturns, _, _⟩ := Course.exists_of_andThen returns
      have isTurn := tells_turn summary sequel turnReturns
      obtain next | last := sequel
      · have stillGoing : next.cancelled = false := isTurn.cancelled_of_again.trans going
        rw [turns_of_again turnReturns] at returns ⊢
        rw [Trace.reports_append, Trace.drops_append]
        exact .of_isTurn_again turnReturns isTurn
          (inductionHypothesis stillGoing final returns)
      · rw [turns_of_over turnReturns] at returns ⊢
        cases returns
        exact .of_isTurn_over going turnReturns isTurn

end

variable {loop : Loop} {host : Host σ} {standing : Standing σ}

theorem tells_finish
    (summary : Summary) :
    (finish summary standing).Tells fun final trace =>
      final = summary ∧ trace.reports = [] ∧ trace.drops = [] := by
  refine Course.tells_andThen_of_single rfl fun _ standing => ?_
  refine Course.tells_andThen_of_single rfl fun _ standing => ?_
  exact Course.tells_pure ⟨rfl, rfl, rfl⟩

/-- The counts of a run that returns are those of what it reports. -/
theorem tallies_run (standing : Standing σ) :
    (loop.run host standing).Tells fun final trace =>
      Tallies loop host {} standing final trace.reports trace.drops := by
  have turnsTell : (loop.turns host loop.roundLimit {} standing).Tells fun final trace =>
      Tallies loop host {} standing final trace.reports trace.drops := tallies_turns _ rfl
  have restTells : ((loop.turns host loop.roundLimit {} standing).andThen finish).Tells
      fun final trace => Tallies loop host {} standing final trace.reports trace.drops := by
    refine turnsTell.andThen fun summary reports later tallies => ?_
    intro final returns
    obtain ⟨rfl, noReports, noDrops⟩ := tells_finish summary final returns
    rw [Trace.reports_append, Trace.drops_append, noReports, noDrops]
    rwa [List.append_nil, List.append_nil]
  exact restTells

/-- However a run ends, if it returns, then its counts agree with what it has reported. -/
theorem agreesWith_run
    {catalog : Catalog}
    {config : IndexConfig}
    {schedule : Schedule}
    (built : Loop.new catalog config schedule = .ok loop)
    {summary : Summary}
    (returns : (loop.run host standing).result = .ok summary) :
    AgreesWith schedule.policy catalog.indexes.length (loop.run host standing).trace.reports
      (loop.CutsShort host {} standing) summary := by
  have tallies := tallies_run standing summary returns
  obtain ⟨_, _, _, plans, rfl⟩ := exists_divisors_of_new built
  have indexes : loop.plans.length = catalog.indexes.length := by
    rw [plans, plansOf, List.length_map]
  refine ⟨?computed, ?failed, ?outcomes, ?numbers, ?cut, ?notCut⟩
  case computed => rw [tallies.computed, Nat.zero_add]
  case failed => rw [tallies.failed, Nat.zero_add]
  case outcomes =>
    intro report member
    obtain ⟨before, block, after, split, isPart⟩ := tallies.account.exists_isPart member
    rw [split, ← indexes]
    exact isPart.isOutcome
  case numbers => exact tallies.account.map_pass_passReports
  case cut =>
    intro pass cut
    obtain ⟨last, number⟩ := tallies.cut pass cut
    rw [Nat.zero_add] at number
    exact ⟨number, last.trans number⟩
  case notCut =>
    intro notCut
    rw [tallies.notCut notCut, Nat.zero_add]

end Loop

end Refresh
end CompositeIndex
