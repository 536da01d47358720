import CompositeIndex.Proofs.Refresh.Accounts
import CompositeIndex.Proofs.Refresh.Lowered

/-!
# Runs that come to an early end

A run that is interrupted is compared with the run of the same loop whose flag nobody raises.
What it reports is a prefix of what that run reports, and it is cancelled just when something
is missing, provided that the other run returns at all. A run whose recipient refuses a report
ends with this report.
-/

namespace CompositeIndex
namespace Refresh

/-! ## Without a flag -/

/-- An outside does what it does without anybody at the flag. -/
theorem Host.follows_undisturbed (host : Host σ) :
    host.Follows host.undisturbed fun _ => Eq where
  now := by
    rintro _ world _ rfl
    rfl
  reader := by
    rintro _ world _ rfl
    rfl
  lowered := fun _ _ => rfl
  ask := by
    rintro _ world _ rfl query
    rfl
  fallAsleep := by
    rintro _ world _ rfl duration
    rfl
  wake := by
    rintro _ world _ rfl duration
    change Option.Rel Eq (host.wake duration world) (host.wake duration world)
    cases host.wake duration world with
    | none => exact .none
    | some woken => exact .some rfl
  report := by
    rintro _ world _ rfl report _
    exact ⟨rfl, rfl⟩
  refuse := by
    rintro _ world _ rfl report differs
    exact absurd rfl differs

section

variable {host : Host σ} {calm : Host τ} {same : List Report → σ → τ → Prop}
variable {made : List Report} {standing : Standing σ} {other : Standing τ}

theorem Host.not_refuses_undisturbed (report : Report) (halt : Halt) :
    ¬host.Refuses host.undisturbed (fun _ => Eq) made report halt := by
  rintro ⟨world, _, rfl, refused, differs⟩
  exact differs refused

/-- If nobody is at the flag, it does not matter what the flag would be like. -/
theorem Host.Follows.undisturbed (follows : host.Follows calm same) :
    host.undisturbed.Follows calm same where
  now := follows.now
  reader := follows.reader
  lowered := follows.lowered
  ask := follows.ask
  fallAsleep := follows.fallAsleep
  wake := follows.wake
  report := follows.report
  refuse := follows.refuse

theorem Host.not_raises_undisturbed : ¬host.undisturbed.Raises same := by
  rintro ⟨moment, made, world, other, _, raised⟩
  cases raised

namespace Loop

/-- Two runs are alike if the flag is never found raised and no report refused. -/
theorem run_eq_of_follows
    (loop : Loop)
    (follows : host.Follows calm same)
    (lowered : ¬host.Raises same)
    (accepts : ∀ made report halt, ¬host.Refuses calm same made report halt)
    (beside : Beside same [] standing other) :
    (loop.run host standing).result = (loop.run calm other).result ∧
      (loop.run host standing).trace = (loop.run calm other).trace := by
  cases loop.shadows_run follows beside with
  | alike result trace uninterrupted beside isPlain => exact ⟨result, trace⟩
  | noticed answer result isCut raises before after trace uninterrupted isPrefix closing =>
      exact absurd raises lowered
  | refused halt result before report aside wholeAside refuses trace uninterrupted isPrefix =>
      exact absurd refuses (accepts _ report halt)

/-- A run that nobody can interrupt is not cancelled. -/
theorem cancelled_of_undisturbed
    (loop : Loop)
    {summary : Summary}
    (returns : (loop.run host.undisturbed standing).result = .ok summary) :
    summary.cancelled = false := by
  have follows : host.undisturbed.Follows host.undisturbed fun _ => Eq :=
    host.follows_undisturbed.undisturbed
  have beside : Beside (fun _ => Eq) [] standing standing := ⟨rfl, rfl⟩
  cases loop.shadows_run follows beside with
  | alike result trace uninterrupted beside isPlain => exact isPlain summary returns
  | noticed answer result isCut raises before after trace uninterrupted isPrefix closing =>
      exact absurd raises Host.not_raises_undisturbed
  | refused halt result before report aside wholeAside refuses trace uninterrupted isPrefix =>
      exact absurd refuses (Host.not_refuses_undisturbed report halt)

end Loop
end

/-! ## The beginning of a run -/

/-- A run does what another run does, up to the moment at which it notices the flag. -/
structure IsBeginning
    (isCut : Nat → Prop)
    (run : Course σ Summary)
    (whole : Course τ Summary) : Prop where
  reports : run.trace.reports <+: whole.trace.reports
  queries : run.trace.queries <+: whole.trace.queries
  sleeps : run.trace.sleeps <+: whole.trace.sleeps
  /-- Nothing is started once the flag has been noticed. -/
  closing : ∀ before after, run.trace = before ++ .noticed :: after →
    ∀ activity ∈ after, activity.IsClosing
  /-- An index that is given up is not reported in its pass. -/
  dropped : ∀ pass index, .dropped pass index ∈ run.trace →
    ∀ report ∈ run.trace.reports, report.pass = pass → report.index? ≠ some index
  /-- A pass that is cut short has no outcome. -/
  cut : ∀ summary, run.result = .ok summary → ∀ pass, isCut pass →
    ∀ report, .finished report ∈ run.trace.reports → report.pass ≠ pass
  unnoticed : .noticed ∉ run.trace → run.result = whole.result ∧ run.trace = whole.trace
  noticed : .noticed ∈ run.trace →
    ∃ summary, run.result = .ok summary ∧ summary.cancelled = true
  /-- A run is cancelled just when something is missing that the other run reports before it
  returns. -/
  cancelled_iff : ∀ last, whole.result = .ok last →
    ∃ summary, run.result = .ok summary ∧
      (summary.cancelled = true ↔ run.trace.reports ≠ whole.trace.reports)

/-- Only the result and the trace of the other run matter. -/
theorem IsBeginning.of_eq
    {isCut : Nat → Prop}
    {run : Course σ Summary}
    {whole : Course τ Summary}
    {other : Course υ Summary}
    (beginning : IsBeginning isCut run whole)
    (result : whole.result = other.result)
    (trace : whole.trace = other.trace) :
    IsBeginning isCut run other where
  reports := trace ▸ beginning.reports
  queries := trace ▸ beginning.queries
  sleeps := trace ▸ beginning.sleeps
  closing := beginning.closing
  dropped := beginning.dropped
  cut := beginning.cut
  unnoticed := by
    rw [← result, ← trace]
    exact beginning.unnoticed
  noticed := beginning.noticed
  cancelled_iff := by
    rw [← result, ← trace]
    exact beginning.cancelled_iff

namespace Course.Shadows

variable {host : Host σ} {calm : Host τ} {same : List Report → σ → τ → Prop}
variable {made : List Report} {plain cut : α → Prop}
variable {course : Course σ α} {whole : Course τ α}

/-- What a part starts, of whichever kind, is a prefix of what it starts on the calm outside. -/
theorem filterMap_prefix
    (shadows : Shadows host calm same made plain cut course whole)
    {select : Activity → Option β}
    (closing : ∀ activity : Activity, activity.IsClosing → select activity = none)
    (aside : ∀ report log other,
      select (.reported report log) = select (.reported report other)) :
    course.trace.filterMap select <+: whole.trace.filterMap select := by
  cases shadows with
  | alike result trace uninterrupted beside isPlain =>
      exact ⟨[], by rw [trace, List.append_nil]⟩
  | noticed answer result isCut raises before after trace uninterrupted isPrefix afterCloses =>
      have nothing : (Activity.noticed :: after).filterMap select = [] := by
        refine List.filterMap_eq_nil_iff.mpr fun activity member => closing activity ?_
        rcases List.mem_cons.mp member with rfl | behind
        · exact ⟨rfl, rfl, rfl⟩
        · exact afterCloses activity behind
      rw [trace, List.filterMap_append, nothing, List.append_nil]
      exact isPrefix.filterMap select
  | refused halt result before report log wholeLog refuses trace uninterrupted isPrefix =>
      have same : (before ++ [Activity.reported report log]).filterMap select =
          (before ++ [Activity.reported report wholeLog]).filterMap select := by
        rw [List.filterMap_append, List.filterMap_append]
        simp only [List.filterMap_cons, aside report log wholeLog]
      rw [trace, same]
      exact isPrefix.filterMap select

/-- Behind an interruption nothing is started. -/
theorem isClosing_of_noticed
    (shadows : Shadows host calm same made plain cut course whole)
    {before after : Trace}
    (split : course.trace = before ++ .noticed :: after) :
    ∀ activity ∈ after, activity.IsClosing := by
  have interrupted : ¬course.trace.IsUninterrupted := by
    intro uninterrupted
    cases uninterrupted .noticed (by simp [split])
  cases shadows with
  | alike result trace uninterrupted beside isPlain => exact absurd uninterrupted interrupted
  | refused halt result front report log wholeLog refuses trace uninterrupted isPrefix =>
      refine absurd ?_ interrupted
      rw [trace]
      exact uninterrupted.append (Trace.isUninterrupted_singleton rfl)
  | noticed answer result isCut raises front back trace uninterrupted isPrefix closing =>
      rw [trace] at split
      rcases List.append_eq_append_iff.mp split with
        ⟨between, rfl, behind⟩ | ⟨between, rfl, behind⟩
      · cases between with
        | nil =>
            cases behind
            exact closing
        | cons activity between =>
            cases behind
            intro activity member
            exact closing activity (by simp [member])
      · cases between with
        | nil =>
            cases behind
            exact closing
        | cons activity between =>
            cases behind
            cases uninterrupted .noticed (by simp)

end Course.Shadows

namespace Loop

section

variable {loop : Loop} {host : Host σ} {standing : Standing σ}

/-- A run is alike throughout, or it notices the flag and is cancelled. -/
theorem alike_or_noticed
    (loop : Loop)
    (host : Host σ)
    (standing : Standing σ) :
    ((loop.run host standing).trace.IsUninterrupted ∧
        (loop.run host standing).result = (loop.run host.undisturbed standing).result ∧
        (loop.run host standing).trace = (loop.run host.undisturbed standing).trace) ∨
      (.noticed ∈ (loop.run host standing).trace ∧
        ∃ summary, (loop.run host standing).result = .ok summary ∧
          summary.cancelled = true) := by
  have beside : Beside (fun _ => Eq) [] standing standing := ⟨rfl, rfl⟩
  cases loop.shadows_run host.follows_undisturbed beside with
  | alike result trace uninterrupted beside isPlain =>
      exact .inl ⟨uninterrupted, result, trace⟩
  | noticed answer result isCut raises before after trace uninterrupted isPrefix closing =>
      refine .inr ⟨?_, answer, result, isCut⟩
      rw [trace]
      exact List.mem_append_right before List.mem_cons_self
  | refused halt result before report aside wholeAside refuses trace uninterrupted isPrefix =>
      exact absurd refuses (Host.not_refuses_undisturbed report halt)

/-- A loop computes every index once in a pass. -/
theorem nodup_index_of_new
    {catalog : Catalog}
    {config : IndexConfig}
    {schedule : Schedule}
    (built : Loop.new catalog config schedule = .ok loop) :
    (loop.plans.map Plan.index).Nodup := by
  rw [map_index_of_new built]
  exact (catalog.ascending_group _).nodup

/-- If the other run returns, then a run is cancelled just when one of its reports is missing:
the passes that have been finished tell whether the run is complete. -/
theorem cancelled_iff_of_returns
    {summary last : Summary}
    (returns : (loop.run host standing).result = .ok summary)
    (wholeReturns : (loop.run host.undisturbed standing).result = .ok last)
    (alike : summary.cancelled = false →
      (loop.run host standing).trace = (loop.run host.undisturbed standing).trace) :
    summary.cancelled = true ↔
      (loop.run host standing).trace.reports ≠
        (loop.run host.undisturbed standing).trace.reports := by
  have complete := (tallies_run standing summary returns).complete_iff
  have wholeComplete := (tallies_run standing last wholeReturns).complete_iff
  have isComplete := wholeComplete.mp (loop.cancelled_of_undisturbed wholeReturns)
  constructor
  · intro isCancelled sameReports
    rw [← sameReports] at isComplete
    rw [complete.mpr isComplete] at isCancelled
    cases isCancelled
  · intro differs
    cases isCancelled : summary.cancelled with
    | true => rfl
    | false => exact absurd (congrArg Trace.reports (alike isCancelled)) differs

/-- A run begins like the run whose flag nobody raises, and ends when it notices the flag. -/
theorem isBeginning_run
    {catalog : Catalog}
    {config : IndexConfig}
    {schedule : Schedule}
    (built : Loop.new catalog config schedule = .ok loop)
    (host : Host σ)
    (standing : Standing σ) :
    IsBeginning (loop.CutsShort host {} standing) (loop.run host standing)
      (loop.run host.undisturbed standing) := by
  have beside : Beside (fun _ => Eq) [] standing standing := ⟨rfl, rfl⟩
  have shadows := loop.shadows_run host.follows_undisturbed beside
  have alike_or_noticed := loop.alike_or_noticed host standing
  refine ⟨shadows.filterMap_prefix (fun _ closing => closing.1) fun _ _ _ => rfl,
    shadows.filterMap_prefix (fun _ closing => closing.2.1) fun _ _ _ => rfl,
    shadows.filterMap_prefix (fun _ closing => closing.2.2) fun _ _ _ => rfl,
    fun _ _ split => shadows.isClosing_of_noticed split, ?dropped, ?cut, ?unnoticed, ?returns,
    ?cancelled⟩
  case dropped =>
    intro pass index dropped report member samePass
    obtain ⟨uninterrupted, _⟩ | ⟨_, summary, returns, _⟩ := alike_or_noticed
    · cases uninterrupted _ dropped
    · have account := (tallies_run standing summary returns).account
      have isDrop : (pass, index) ∈ (loop.run host standing).trace.drops :=
        List.mem_filterMap.mpr ⟨_, dropped, rfl⟩
      exact (account.index?_ne_of_mem_drops (nodup_index_of_new built) isDrop).2 report member
        samePass
  case cut =>
    intro summary returns pass isCut report member samePass
    have agrees := agreesWith_run built returns
    have isNumber : report.pass ∈
        (passReports (loop.run host standing).trace.reports).map PassReport.pass :=
      List.mem_map.mpr ⟨report, List.mem_filterMap.mpr ⟨_, member, rfl⟩, rfl⟩
    rw [agrees.numbers, List.mem_range'_1] at isNumber
    have behind := (agrees.cut pass isCut).1
    omega
  case unnoticed =>
    intro unnoticed
    obtain ⟨_, alike⟩ | ⟨noticed, _⟩ := alike_or_noticed
    · exact alike
    · exact absurd noticed unnoticed
  case returns =>
    intro noticed
    obtain ⟨uninterrupted, _⟩ | ⟨_, isCut⟩ := alike_or_noticed
    · cases uninterrupted _ noticed
    · exact isCut
  case cancelled =>
    intro last wholeReturns
    obtain ⟨_, result, trace⟩ | ⟨_, summary, returns, isCancelled⟩ := alike_or_noticed
    · have returns := result.trans wholeReturns
      exact ⟨last, returns, cancelled_iff_of_returns returns wholeReturns fun _ => trace⟩
    · refine ⟨summary, returns, cancelled_iff_of_returns returns wholeReturns ?_⟩
      intro notCancelled
      rw [isCancelled] at notCancelled
      cases notCancelled

end

end Loop

/-! ## A refused report -/

/-- The same outside, but the report of this number is refused. The reports are counted beside
the world. -/
def Host.refusing (host : Host σ) (number : Nat) (problem : String) : Host (σ × Nat) where
  now := fun world => host.now world.1
  reader := fun world => host.reader world.1
  isRaised := fun moment world => host.isRaised moment world.1
  ask := fun query world => (host.ask query world.1, world.2)
  report := fun report world =>
    if world.2 + 1 = number then ⟨.error (.output problem), (world.1, number), []⟩
    else
      let reaction := host.report report world.1
      ⟨reaction.result, (reaction.world, world.2 + 1), reaction.log⟩
  fallAsleep := fun duration world => (host.fallAsleep duration world.1, world.2)
  wake := fun duration world => (host.wake duration world.1).map fun woken => (woken, world.2)

/-- The world stands beside the number of reports made, and the refusal is still to come. -/
def IsCounted (number : Nat) (made : List Report) (world : σ × Nat) (other : σ) : Prop :=
  world = (other, made.length) ∧ made.length < number

section

variable {host : Host σ} {number : Nat} {problem : String}

theorem Host.report_refusing_of_eq
    {count : Nat}
    (isNumber : count + 1 = number)
    (report : Report)
    (world : σ) :
    (host.refusing number problem).report report (world, count) =
      ⟨.error (.output problem), (world, number), []⟩ :=
  if_pos isNumber

theorem Host.report_refusing_of_ne
    {count : Nat}
    (isOther : count + 1 ≠ number)
    (report : Report)
    (world : σ) :
    (host.refusing number problem).report report (world, count) =
      ⟨(host.report report world).result, ((host.report report world).world, count + 1),
        (host.report report world).log⟩ :=
  if_neg isOther

/-- Up to the refused report, an outside that refuses it does what it does without refusing. -/
theorem Host.follows_refusing
    (lowered : ∀ moment world, host.isRaised moment world = false)
    (accepts : ∀ report world, (host.report report world).result ≠ .error (.output problem)) :
    (host.refusing number problem).Follows host (IsCounted number) where
  now := by
    rintro made _ world ⟨rfl, _⟩
    rfl
  reader := by
    rintro made _ world ⟨rfl, _⟩
    rfl
  lowered := fun _ moment => lowered moment _
  ask := by
    rintro made _ world ⟨rfl, below⟩ query
    exact ⟨rfl, below⟩
  fallAsleep := by
    rintro made _ world ⟨rfl, below⟩ duration
    exact ⟨rfl, below⟩
  wake := by
    rintro made _ world ⟨rfl, below⟩ duration
    change Option.Rel _ ((host.wake duration world).map fun woken => (woken, made.length))
      (host.wake duration world)
    cases host.wake duration world with
    | none => exact .none
    | some woken => exact .some ⟨rfl, below⟩
  report := by
    rintro made _ world ⟨rfl, below⟩ report alike
    by_cases isNumber : made.length + 1 = number
    · rw [report_refusing_of_eq isNumber] at alike
      exact absurd alike.symm (accepts report world)
    · rw [report_refusing_of_ne isNumber]
      refine ⟨rfl, ?_, ?_⟩
      · rw [List.length_append, List.length_singleton]
      · rw [List.length_append, List.length_singleton]
        omega
  refuse := by
    rintro made _ world ⟨rfl, below⟩ report differs
    by_cases isNumber : made.length + 1 = number
    · rw [report_refusing_of_eq isNumber]
      exact ⟨_, rfl⟩
    · rw [report_refusing_of_ne isNumber] at differs
      exact absurd rfl differs

/-- Nothing is refused but the report of the number. -/
theorem Host.Refuses.of_refusing
    {made : List Report}
    {report : Report}
    {halt : Halt}
    (refuses : (host.refusing number problem).Refuses host (IsCounted number) made report
      halt) :
    made.length + 1 = number ∧ halt = .output problem := by
  obtain ⟨_, world, ⟨rfl, below⟩, refused, differs⟩ := refuses
  by_cases isNumber : made.length + 1 = number
  · rw [report_refusing_of_eq isNumber] at refused
    cases refused
    exact ⟨isNumber, rfl⟩
  · rw [report_refusing_of_ne isNumber] at refused
    exact absurd refused differs

/-- How a run goes whose recipient refuses the report of a number: it makes the reports of the
other run up to this one and then breaks off, and it is alike if there is no such report. -/
structure IsRefused
    (number : Nat)
    (problem : String)
    (run : Course σ Summary)
    (whole : Course τ Summary) : Prop where
  refused : number ≤ whole.trace.reports.length →
    run.result = .error (.output problem) ∧
      run.trace.reports = whole.trace.reports.take number
  taken : whole.trace.reports.length < number →
    run.result = whole.result ∧ run.trace = whole.trace

theorem Loop.isRefused_run
    (loop : Loop)
    (lowered : ∀ moment world, host.isRaised moment world = false)
    (accepts : ∀ report world, (host.report report world).result ≠ .error (.output problem))
    (positive : 0 < number)
    (standing : Standing σ) :
    IsRefused number problem
      (loop.run (host.refusing number problem)
        { phase := standing.phase, world := (standing.world, 0) })
      (loop.run host standing) := by
  have beside : Beside (IsCounted number) []
      { phase := standing.phase, world := (standing.world, 0) } standing :=
    ⟨rfl, rfl, positive⟩
  cases loop.shadows_run (Host.follows_refusing lowered accepts) beside with
  | alike result trace uninterrupted beside isPlain =>
      have below : (loop.run host standing).trace.reports.length < number := by
        rw [← trace]
        exact beside.world.2
      refine ⟨fun atMost => ?_, fun _ => ⟨result, trace⟩⟩
      exact absurd below (Nat.not_lt_of_le atMost)
  | noticed answer result isCut raises before after trace uninterrupted isPrefix closing =>
      obtain ⟨moment, made, world, other, _, raised⟩ := raises
      cases (lowered moment world.1).symm.trans raised
  | refused halt result before report aside wholeAside refuses trace uninterrupted isPrefix =>
      obtain ⟨isNumber, rfl⟩ := refuses.of_refusing
      rw [List.nil_append] at isNumber
      have reports : (loop.run (host.refusing number problem)
          { phase := standing.phase, world := (standing.world, 0) }).trace.reports =
            Trace.reports before ++ [report] := by
        rw [trace, Trace.reports_append]
        rfl
      have length : (Trace.reports before ++ [report]).length = number := by
        rw [List.length_append, List.length_singleton, isNumber]
      have isPrefix : Trace.reports before ++ [report] <+:
          (loop.run host standing).trace.reports := by
        have selected := isPrefix.filterMap Activity.report?
        rw [List.filterMap_append] at selected
        exact selected
      constructor
      · intro _
        refine ⟨result, ?_⟩
        rw [reports, List.prefix_iff_eq_take.mp isPrefix, length]
      · intro below
        have atMost := isPrefix.length_le
        omega

end

/-! ## Rehearsed runs -/

namespace Rehearsal

/-- A loop in front of a world with a flag that nobody has touched. -/
def lowered (standing : Standing (World S)) : Standing (World S) :=
  { standing with world := standing.world.lowered }

variable {backend : Backend S C} {script : Script C} {standing : Standing (World S)}

/-- To lower the script is to have nobody at the flag. -/
theorem run_lowered
    (loop : Loop)
    (backend : Backend S C)
    (script : Script C)
    (standing : Standing (World S)) :
    let whole := loop.run (host backend script.lowered) (lowered standing)
    (loop.run (host backend script).undisturbed standing).result = whole.result ∧
      (loop.run (host backend script).undisturbed standing).trace = whole.trace := by
  have follows := (follows_lowered backend script).undisturbed
  have beside : Beside (fun _ world other => other = world.lowered) [] standing
      (lowered standing) := ⟨rfl, rfl⟩
  exact loop.run_eq_of_follows follows Host.not_raises_undisturbed
    (not_refuses_lowered fun sameWorld => sameWorld) beside

/-- Nothing else happens in a run whose flag stays down. -/
theorem run_of_staysDown
    (loop : Loop)
    {property : Flag → Prop}
    (preserves : script.Preserves property)
    (down : ∀ flag, property flag → flag.isRaised = false)
    (never : script.holds = false)
    (holds : property standing.world.flag) :
    let whole := loop.run (host backend script.lowered) (lowered standing)
    (loop.run (host backend script) standing).result = whole.result ∧
      (loop.run (host backend script) standing).trace = whole.trace := by
  have follows := (follows_lowered backend script).and (preserves.keeps backend)
  have beside : Beside (fun _ world other => other = world.lowered ∧ property world.flag) []
      standing (lowered standing) := ⟨rfl, rfl, holds⟩
  have staysDown : ¬(host backend script).Raises
      fun _ world other => other = world.lowered ∧ property world.flag := by
    rintro ⟨moment, made, world, other, ⟨_, stillHolds⟩, raised⟩
    rw [isRaised_eq_false (down _ stillHolds) never moment] at raised
    cases raised
  exact loop.run_eq_of_follows follows staysDown (not_refuses_lowered fun both => both.1) beside

/-- A script that leaves the flag down may let go of it or not. -/
theorem run_of_neverRaises
    (loop : Loop)
    (never : script.NeverRaises)
    (isDown : standing.world.isRaised = false) :
    let whole := loop.run (host backend script.lowered) (lowered standing)
    (loop.run (host backend script) standing).result = whole.result ∧
      (loop.run (host backend script) standing).trace = whole.trace :=
  run_of_staysDown loop never.preserves (fun _ isDown => isDown) never.holds isDown

/-- Where nobody holds the flag any more, a script may raise it as often as it likes. -/
theorem run_of_released
    (loop : Loop)
    (never : script.holds = false)
    (isDown : standing.world.isRaised = false)
    (released : standing.world.isConnected = false) :
    let whole := loop.run (host backend script.lowered) (lowered standing)
    (loop.run (host backend script) standing).result = whole.result ∧
      (loop.run (host backend script) standing).trace = whole.trace :=
  run_of_staysDown loop script.preserves_released (fun _ both => both.1) never
    ⟨isDown, released⟩

end Rehearsal

/-- However a run of a loop is brought to an early end, it begins like the run that nobody
brings to an end. A raised flag is one reason, whatever raises it; a refused report is another
one. In a rehearsal the other run is that of the lowered script, and nothing at all changes if
the script only lets go of the flag. -/
theorem Loop.begins_alike
    {catalog : Catalog}
    {config : IndexConfig}
    {schedule : Schedule}
    {loop : Loop}
    (built : Loop.new catalog config schedule = .ok loop) :
    (∀ (σ : Type) (host : Host σ) (standing : Standing σ),
      IsBeginning (loop.CutsShort host {} standing) (loop.run host standing)
        (loop.run host.undisturbed standing)) ∧
    (∀ (σ : Type) (host : Host σ) (standing : Standing σ) (number : Nat) (problem : String),
      0 < number →
      (∀ report world, (host.report report world).result ≠ .error (.output problem)) →
        IsRefused number problem
          (loop.run (host.undisturbed.refusing number problem)
            { phase := standing.phase, world := (standing.world, 0) })
          (loop.run host.undisturbed standing)) ∧
    (∀ (S C : Type) (backend : Rehearsal.Backend S C) (script : Rehearsal.Script C)
        (standing : Standing (Rehearsal.World S)),
      let host := Rehearsal.host backend script
      let whole := loop.run (Rehearsal.host backend script.lowered) (Rehearsal.lowered standing)
      IsBeginning (loop.CutsShort host {} standing) (loop.run host standing) whole ∧
        (script.NeverRaises → standing.world.isRaised = false →
          (loop.run host standing).result = whole.result ∧
            (loop.run host standing).trace = whole.trace)) := by
  refine ⟨?flag, ?refusal, ?rehearsal⟩
  case flag =>
    intro σ host standing
    exact isBeginning_run built host standing
  case refusal =>
    intro σ host standing number problem positive accepts
    have lowered : ∀ moment world, host.undisturbed.isRaised moment world = false :=
      fun _ _ => rfl
    exact loop.isRefused_run lowered accepts positive standing
  case rehearsal =>
    intro S C backend script standing host whole
    obtain ⟨result, trace⟩ := Rehearsal.run_lowered loop backend script standing
    exact ⟨(isBeginning_run built host standing).of_eq result trace,
      Rehearsal.run_of_neverRaises loop⟩

/-- A run over an index whose product has no value. The flag is raised behind the first pass,
or the second report is refused, or the flag is let go of. -/
theorem Loop.begins_alike_sample :
    let catalog := Catalog.ofGroups [(Tag.indexes, ["I"]), (Tag.products, ["A"])]
    let schedule : Schedule := { maxPasses := some 2 }
    let start : Timestamp := ⟨1772452800000000000, 0, by decide⟩
    let standing : Standing (Rehearsal.World MemoryStore) :=
      ⟨.idle, { store := .empty, clock := .startingAt start }⟩
    let host := Rehearsal.host Rehearsal.Backend.memory
    let raising : Rehearsal.Script MemoryStore.Change :=
      { hooks := [{ position := 2, raises := true }] }
    let releasing : Rehearsal.Script MemoryStore.Change :=
      { hooks := [{ position := 2, releases := true }] }
    ∃ loop, Loop.new catalog IndexConfig.empty schedule = .ok loop ∧
      IsBeginning (loop.CutsShort (host raising) {} standing) (loop.run (host raising) standing)
        (loop.run (host raising).undisturbed standing) ∧
      (loop.run (host raising) standing).result =
        .ok { passes := 1, computed := 0, failed := 1, cancelled := true } ∧
      (loop.run ((host {}).undisturbed.refusing 2 "closed") ⟨.idle, (standing.world, 0)⟩).result =
        .error (.output "closed") ∧
      (loop.run (host releasing) standing).result =
        (loop.run (host releasing.lowered) (Rehearsal.lowered standing)).result := by
  intro catalog schedule start standing host raising releasing
  have built : Loop.new catalog IndexConfig.empty schedule =
      .ok ⟨Aggregator.new Divisors.default catalog, plansOf IndexConfig.empty catalog,
        schedule⟩ := by
    rfl
  obtain ⟨flag, refusal, rehearsal⟩ := begins_alike built
  have accepts : ∀ report world, ((host {}).report report world).result ≠
      .error (.output "closed") := by
    intro report world refuses
    change (Rehearsal.takeReport _ _ report world).result = _ at refuses
    unfold Rehearsal.takeReport at refuses
    dsimp only at refuses
    split at refuses
    · simp [Output.Sink.refusal] at refuses
    · cases refuses
  have refused := refusal _ (host {}) standing 2 "closed" (by decide) accepts
  have never : releasing.NeverRaises := ⟨by decide, rfl, rfl⟩
  exact ⟨_, built, flag _ (host raising) standing, rfl, (refused.refused (by decide)).1,
    ((rehearsal _ _ _ releasing standing).2 never rfl).1⟩

/-- What a run that is cut short need not lose. In the last second of the calendar no pass can
follow the first one; a run that is cancelled behind it misses no report of the other run, which
breaks off there. And a store that answers at once leaves no moment to look at the flag: if the
flag is raised while the value of a product is asked for, the index is reported all the same. -/
theorem Loop.cancelled_without_loss :
    let catalog := Catalog.ofGroups [(Tag.indexes, ["I"]), (Tag.products, ["A"])]
    let schedule : Schedule := { maxPasses := some 2 }
    let lastSecond : Timestamp := ⟨253402300799500000000, 0, by decide⟩
    let standing : Standing (Rehearsal.World MemoryStore) :=
      ⟨.idle, { store := .empty, clock := .startingAt lastSecond }⟩
    let host := Rehearsal.host Rehearsal.Backend.memory
    let raising : Rehearsal.Script MemoryStore.Change :=
      { hooks := [{ position := 2, raises := true }] }
    let tripping : Rehearsal.Script MemoryStore.Change := { trip := some ⟨1, false⟩ }
    let reports : List Report :=
      [.failed 1 "I" (.entryMissing "A"), .finished { pass := 1, failed := 1 }]
    let summary : Summary := { passes := 1, failed := 1, cancelled := true }
    ∃ loop, Loop.new catalog IndexConfig.empty schedule = .ok loop ∧
      (loop.run (host raising) standing).result = .ok summary ∧
      (loop.run (host raising) standing).trace.reports = reports ∧
      (loop.run (host raising.lowered) standing).result = .error .leftCalendar ∧
      (loop.run (host raising.lowered) standing).trace.reports = reports ∧
      (standing.world.ask tripping.trip).isRaised = true ∧
      (loop.run (host tripping) standing).trace.queries.length = 1 ∧
      (loop.run (host tripping) standing).result = .ok summary ∧
      (loop.run (host tripping) standing).trace.reports = reports := by
  -- Without local definitions the runs are evaluated much faster.
  dsimp only
  exact ⟨_, rfl, rfl, rfl, rfl, rfl, rfl, rfl, rfl, rfl⟩

end Refresh
end CompositeIndex
