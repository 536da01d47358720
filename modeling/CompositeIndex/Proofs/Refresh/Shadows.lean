import CompositeIndex.Proofs.Refresh.Passes

/-!
# Runs beside an undisturbed run

Two outsides of the loop are compared. One of them is calm: its flag is never raised. The other
one does the same, except that it may raise the flag at any moment and refuse any report. As
long as neither happens, a part of a run does the same on both. Once the flag is noticed or a
report is refused, nothing is left to be done that the part does on the calm outside; what has
been done until then is a prefix of that. `Shadows` puts this down for one part of a run, and
the parts are followed along the definition of the loop.
-/

namespace CompositeIndex
namespace Refresh

/-- The activity starts nothing: it is no report, no question and no sleep. -/
def Activity.IsClosing (activity : Activity) : Prop :=
  activity.report? = none ∧ activity.query? = none ∧ activity.sleep? = none

/-- The activity belongs to an interruption: the flag is noticed, or an index is given up. -/
def Activity.isInterruption : Activity → Bool
  | .noticed => true
  | .dropped _ _ => true
  | _ => false

/-- Nothing in the trace belongs to an interruption. -/
def Trace.IsUninterrupted (trace : Trace) : Prop :=
  ∀ activity ∈ trace, activity.isInterruption = false

theorem Trace.IsUninterrupted.append
    {trace more : Trace}
    (first : trace.IsUninterrupted)
    (second : more.IsUninterrupted) :
    Trace.IsUninterrupted (trace ++ more) := by
  intro activity member
  rcases List.mem_append.mp member with earlier | later
  · exact first activity earlier
  · exact second activity later

theorem Trace.isUninterrupted_singleton
    {activity : Activity}
    (plain : activity.isInterruption = false) :
    Trace.IsUninterrupted [activity] := by
  intro other member
  rw [List.mem_singleton.mp member]
  exact plain

/-! ## Outsides that do the same -/

/-- The outside does what the calm outside does, but for raising the flag and for refusing
reports. Worlds are compared by `same`, which may look at the reports made so far. -/
structure Host.Follows
    (host : Host σ)
    (calm : Host τ)
    (same : List Report → σ → τ → Prop) : Prop where
  now : ∀ {made world other}, same made world other → host.now world = calm.now other
  reader : ∀ {made world other}, same made world other →
    host.reader world = calm.reader other
  lowered : ∀ {made world other}, same made world other →
    ∀ moment, calm.isRaised moment other = false
  ask : ∀ {made world other}, same made world other →
    ∀ query, same made (host.ask query world) (calm.ask query other)
  fallAsleep : ∀ {made world other}, same made world other →
    ∀ duration, same made (host.fallAsleep duration world) (calm.fallAsleep duration other)
  wake : ∀ {made world other}, same made world other →
    ∀ duration, Option.Rel (same made) (host.wake duration world) (calm.wake duration other)
  /-- Reports that are answered in the same way are logged in the same way. -/
  report : ∀ {made world other}, same made world other →
    ∀ report, (host.report report world).result = (calm.report report other).result →
      (host.report report world).log = (calm.report report other).log ∧
        same (made ++ [report]) (host.report report world).world
          (calm.report report other).world
  /-- A report that is answered in another way is refused. -/
  refuse : ∀ {made world other}, same made world other →
    ∀ report, (host.report report world).result ≠ (calm.report report other).result →
      ∃ halt, (host.report report world).result = .error halt

/-- Two runs stand at the same place, so many reports having been made. -/
structure Beside
    (same : List Report → σ → τ → Prop)
    (made : List Report)
    (standing : Standing σ)
    (other : Standing τ) : Prop where
  phase : standing.phase = other.phase
  world : same made standing.world other.world

/-- After these reports, the next one can be refused although the calm outside does not answer
it in this way. -/
def Host.Refuses
    (host : Host σ)
    (calm : Host τ)
    (same : List Report → σ → τ → Prop)
    (made : List Report)
    (report : Report)
    (halt : Halt) : Prop :=
  ∃ world other, same made world other ∧ (host.report report world).result = .error halt ∧
    (calm.report report other).result ≠ .error halt

/-- The flag can be found raised. -/
def Host.Raises (host : Host σ) (same : List Report → σ → τ → Prop) : Prop :=
  ∃ moment made world other, same made world other ∧ host.isRaised moment world = true

/-! ## Parts beside undisturbed parts -/

/-- How a part of a run, which begins after the reports `made`, compares with the same part on
the calm outside. An answer is `plain` if the part went through, and `cut` if the flag was
noticed. -/
inductive Course.Shadows
    (host : Host σ)
    (calm : Host τ)
    (same : List Report → σ → τ → Prop)
    (made : List Report)
    (plain cut : α → Prop)
    (course : Course σ α)
    (whole : Course τ α) : Prop
  /-- Nothing has happened. -/
  | alike
      (result : course.result = whole.result)
      (trace : course.trace = whole.trace)
      (uninterrupted : course.trace.IsUninterrupted)
      (beside : Beside same (made ++ course.trace.reports) course.standing whole.standing)
      (isPlain : ∀ answer, course.result = .ok answer → plain answer)
  /-- The flag was noticed. -/
  | noticed
      (answer : α)
      (result : course.result = .ok answer)
      (isCut : cut answer)
      (raises : host.Raises same)
      (before after : Trace)
      (trace : course.trace = before ++ .noticed :: after)
      (uninterrupted : Trace.IsUninterrupted before)
      (isPrefix : before <+: whole.trace)
      (closing : ∀ activity ∈ after, activity.IsClosing)
  /-- A report was refused. -/
  | refused
      (halt : Halt)
      (result : course.result = .error halt)
      (before : Trace)
      (report : Report)
      (aside wholeAside : List LogLine)
      (refuses : host.Refuses calm same (made ++ before.reports) report halt)
      (trace : course.trace = before ++ [.reported report aside])
      (uninterrupted : Trace.IsUninterrupted before)
      (isPrefix : before ++ [.reported report wholeAside] <+: whole.trace)

/-- The part of a run does nothing more than to come to an end. -/
def Course.Closes (course : Course σ α) (cut : α → Prop) : Prop :=
  ∃ answer, course.result = .ok answer ∧ cut answer ∧
    ∀ activity ∈ course.trace, activity.IsClosing

namespace Course

theorem andThen_of_error
    {course : Course σ α}
    {halt : Halt}
    (result : course.result = .error halt)
    (next : α → Standing σ → Course σ β) :
    course.andThen next = ⟨.error halt, course.standing, course.trace⟩ := by
  unfold andThen
  rw [result]

theorem andThen_of_ok
    {course : Course σ α}
    {answer : α}
    (result : course.result = .ok answer)
    (next : α → Standing σ → Course σ β) :
    course.andThen next =
      ⟨(next answer course.standing).result, (next answer course.standing).standing,
        course.trace ++ (next answer course.standing).trace⟩ := by
  unfold andThen
  rw [result]

/-- What a part does stands at the beginning of what is put together from it. -/
theorem trace_prefix_andThen
    (course : Course σ α)
    (next : α → Standing σ → Course σ β) :
    course.trace <+: (course.andThen next).trace := by
  cases result : course.result with
  | error halt =>
      exact ⟨[], by rw [andThen_of_error result, List.append_nil]⟩
  | ok answer =>
      rw [andThen_of_ok result]
      exact List.prefix_append ..

theorem Closes.pure
    {cut : α → Prop}
    {answer : α}
    (isCut : cut answer)
    (standing : Standing σ) :
    (Course.pure answer standing).Closes cut :=
  ⟨answer, rfl, isCut, nofun⟩

end Course

section

variable {host : Host σ} {calm : Host τ} {same : List Report → σ → τ → Prop}
variable {made : List Report} {standing : Standing σ} {other : Standing τ}

namespace Course.Shadows

section

variable {plain cut : α → Prop}

theorem pure
    (beside : Beside same made standing other)
    {answer : α}
    (isPlain : plain answer) :
    Shadows host calm same made plain cut (.pure answer standing) (.pure answer other) := by
  refine .alike rfl rfl nofun ?_ ?_
  · rwa [Course.pure, Trace.reports, List.filterMap_nil, List.append_nil]
  · rintro _ ⟨⟩
    exact isPlain

theorem halt
    (beside : Beside same made standing other)
    (reason : Halt) :
    Shadows host calm same made plain cut (.halt reason standing) (.halt reason other) := by
  refine .alike rfl rfl nofun ?_ nofun
  rwa [Course.halt, Trace.reports, List.filterMap_nil, List.append_nil]

/-- Once the flag is noticed, it does not matter what the calm outside has in store. -/
theorem of_noticed
    (raises : host.Raises same)
    {next : Unit → Standing σ → Course σ α}
    (closes : (next () standing).Closes cut)
    (whole : Course τ α) :
    Shadows host calm same made plain cut ((Course.note .noticed standing).andThen next)
      whole := by
  obtain ⟨answer, result, isCut, closing⟩ := closes
  exact .noticed answer result isCut raises [] _ rfl nofun List.nil_prefix closing

/-- Once the flag is noticed, a part may answer at once. -/
theorem pure_of_noticed
    (raises : host.Raises same)
    {answer : α}
    (isCut : cut answer)
    (whole : Course τ α) :
    Shadows host calm same made plain cut
      ((Course.note .noticed standing).andThen fun _ standing => .pure answer standing) whole :=
  of_noticed raises (.pure isCut standing) whole

theorem note
    (beside : Beside same made standing other)
    {activity : Activity}
    (silent : activity.report? = none)
    (plain : activity.isInterruption = false) :
    Shadows host calm same made (fun _ => True) (fun _ => False)
      (.note activity standing) (.note activity other) := by
  refine .alike rfl rfl (Trace.isUninterrupted_singleton plain) ?_ fun _ _ => trivial
  rwa [Course.note, Trace.reports, List.filterMap_cons_none silent, List.filterMap_nil,
    List.append_nil]

theorem enter
    (beside : Beside same made standing other)
    (phase : Phase) :
    Shadows host calm same made (fun _ => True) (fun _ => False)
      (.enter phase standing) (.enter phase other) := by
  refine .alike rfl ?_ (Trace.isUninterrupted_singleton rfl) ⟨rfl, ?_⟩ fun _ _ => trivial
  · rw [Course.enter, Course.enter, beside.phase]
  · change same (made ++ []) standing.world other.world
    rw [List.append_nil]
    exact beside.world

theorem report
    (follows : host.Follows calm same)
    (beside : Beside same made standing other)
    (given : Report) :
    Shadows host calm same made (fun _ => True) (fun _ => False)
      (.report host given standing) (.report calm given other) := by
  by_cases alike :
      (host.report given standing.world).result = (calm.report given other.world).result
  · obtain ⟨sameLog, sameWorld⟩ := follows.report beside.world given alike
    refine .alike alike ?_ (Trace.isUninterrupted_singleton rfl) ⟨beside.phase, sameWorld⟩
      fun _ _ => trivial
    rw [Course.report, Course.report, sameLog]
  · obtain ⟨halt, refused⟩ := follows.refuse beside.world given alike
    refine .refused halt refused [] given _ (calm.report given other.world).log
      ⟨standing.world, other.world, ?_, refused, ?_⟩ rfl nofun List.prefix_rfl
    · rw [Trace.reports, List.filterMap_nil, List.append_nil]
      exact beside.world
    · intro alsoRefused
      exact alike (refused.trans alsoRefused.symm)

/-- What both have done before is put in front of a part. -/
theorem prepend
    {earlier : Trace}
    (uninterrupted : earlier.IsUninterrupted)
    {course : Course σ α}
    {whole : Course τ α}
    (rest : Shadows host calm same (made ++ earlier.reports) plain cut course whole) :
    Shadows host calm same made plain cut
      ⟨course.result, course.standing, earlier ++ course.trace⟩
      ⟨whole.result, whole.standing, earlier ++ whole.trace⟩ := by
  cases rest with
  | alike result trace restUninterrupted beside isPlain =>
      refine .alike result (congrArg (earlier ++ ·) trace)
        (uninterrupted.append restUninterrupted) ?_ isPlain
      rw [Trace.reports_append, ← List.append_assoc]
      exact beside
  | noticed answer result isCut raises before after trace restUninterrupted isPrefix closing =>
      refine .noticed answer result isCut raises (earlier ++ before) after ?_
        (uninterrupted.append restUninterrupted) ?_ closing
      · rw [trace, List.append_assoc]
      · exact (List.prefix_append_right_inj earlier).mpr isPrefix
  | refused halt result before report aside wholeAside refuses trace restUninterrupted isPrefix =>
      refine .refused halt result (earlier ++ before) report aside wholeAside ?_ ?_
        (uninterrupted.append restUninterrupted) ?_
      · rw [Trace.reports_append, ← List.append_assoc]
        exact refuses
      · rw [trace, List.append_assoc]
      · rw [List.append_assoc]
        exact (List.prefix_append_right_inj earlier).mpr isPrefix

/-- Two parts compare with two parts if each of them does, and if nothing is left to be done
in the second one once the flag has been noticed in the first one. -/
theorem andThen
    {first : Course σ β}
    {firstWhole : Course τ β}
    {firstPlain firstCut : β → Prop}
    (shadows : Shadows host calm same made firstPlain firstCut first firstWhole)
    {next : β → Standing σ → Course σ α}
    {nextWhole : β → Standing τ → Course τ α}
    (second : ∀ {made} answer {standing other}, firstPlain answer →
      Beside same made standing other →
        Shadows host calm same made plain cut (next answer standing) (nextWhole answer other))
    (closes : ∀ answer standing, firstCut answer → (next answer standing).Closes cut) :
    Shadows host calm same made plain cut (first.andThen next)
      (firstWhole.andThen nextWhole) := by
  cases shadows with
  | alike result trace uninterrupted beside isPlain =>
      cases answers : first.result with
      | error reason =>
          have wholeAnswers : firstWhole.result = .error reason := result.symm.trans answers
          rw [andThen_of_error answers, andThen_of_error wholeAnswers]
          exact .alike rfl trace uninterrupted beside nofun
      | ok answer =>
          have wholeAnswers : firstWhole.result = .ok answer := result.symm.trans answers
          rw [andThen_of_ok answers, andThen_of_ok wholeAnswers, ← trace]
          exact prepend uninterrupted (second answer (isPlain answer answers) beside)
  | noticed answer result isCut raises before after trace uninterrupted isPrefix closing =>
      obtain ⟨last, lastResult, lastCut, lastClosing⟩ := closes answer first.standing isCut
      rw [andThen_of_ok result]
      refine .noticed last lastResult lastCut raises before
        (after ++ (next answer first.standing).trace) ?_ uninterrupted ?_ ?_
      · rw [trace, List.append_assoc, List.cons_append]
      · exact isPrefix.trans (firstWhole.trace_prefix_andThen nextWhole)
      · intro activity member
        rcases List.mem_append.mp member with earlier | later
        · exact closing activity earlier
        · exact lastClosing activity later
  | refused halt result before report aside wholeAside refuses trace uninterrupted isPrefix =>
      rw [andThen_of_error result]
      exact .refused halt rfl before report aside wholeAside refuses trace uninterrupted
        (isPrefix.trans (firstWhole.trace_prefix_andThen nextWhole))

/-- What follows a part in which the flag cannot be noticed. -/
theorem andThen_of_steady
    {first : Course σ β}
    {firstWhole : Course τ β}
    {firstPlain : β → Prop}
    (shadows : Shadows host calm same made firstPlain (fun _ => False) first firstWhole)
    {next : β → Standing σ → Course σ α}
    {nextWhole : β → Standing τ → Course τ α}
    (second : ∀ {made} answer {standing other}, firstPlain answer →
      Beside same made standing other →
        Shadows host calm same made plain cut (next answer standing) (nextWhole answer other)) :
    Shadows host calm same made plain cut (first.andThen next)
      (firstWhole.andThen nextWhole) :=
  shadows.andThen second nofun

/-- When the loop looks at the flag, it may find it raised where the calm outside goes on. -/
theorem look
    (follows : host.Follows calm same)
    (beside : Beside same made standing other)
    (moment : Moment)
    {stop rest : Course σ α}
    {stopWhole restWhole : Course τ α}
    (stops : host.Raises same → Shadows host calm same made plain cut stop restWhole)
    (goesOn : Shadows host calm same made plain cut rest restWhole) :
    Shadows host calm same made plain cut
      (if host.isRaised moment standing.world = true then stop else rest)
      (if calm.isRaised moment other.world = true then stopWhole else restWhole) := by
  rw [follows.lowered beside.world moment, if_neg Bool.false_ne_true]
  by_cases raised : host.isRaised moment standing.world = true
  · rw [if_pos raised]
    exact stops ⟨moment, made, standing.world, other.world, beside.world, raised⟩
  · rw [if_neg raised]
    exact goesOn

end

end Course.Shadows

/-! ## One index -/

namespace Loop

open Course (Shadows)

/-- Giving up an index is all that is left to do when the flag is noticed. -/
theorem shadows_drop
    (raises : host.Raises same)
    (pass : Nat)
    (index : String)
    (whole : Course τ PlanEnd) :
    Shadows host calm same made (· ≠ .interrupted) (· = .interrupted)
      (drop pass index standing) whole := by
  refine Shadows.of_noticed raises ?_ whole
  refine ⟨.interrupted, rfl, rfl, ?_⟩
  intro activity member
  rw [List.mem_singleton.mp member]
  exact ⟨rfl, rfl, rfl⟩

theorem shadows_conclude
    (follows : host.Follows calm same)
    (beside : Beside same made standing other)
    (pass : Nat)
    (index : String)
    (result : Except Failure IndexValue) :
    Shadows host calm same made (· ≠ .interrupted) (· = .interrupted)
      (conclude host pass index result standing) (conclude calm pass index result other) := by
  cases result with
  | ok value =>
      unfold conclude
      refine .andThen_of_steady (.report follows beside _) ?_
      intro made _ standing other _ beside
      exact .pure beside nofun
  | error failure =>
      unfold conclude
      refine .andThen_of_steady (.note beside rfl rfl) ?_
      intro made _ standing other _ beside
      refine .andThen_of_steady (.report follows beside _) ?_
      intro made _ standing other _ beside
      exact .pure beside nofun

/-- Waiting for answers, with what follows it. The flag, if it is noticed, is noticed while an
answer is awaited. -/
theorem shadows_await_andThen
    (follows : host.Follows calm same)
    (beside : Beside same made standing other)
    (pass : Nat)
    (index : String)
    (readings : List Reading)
    {rest : Standing σ → Course σ PlanEnd}
    {restWhole : Standing τ → Course τ PlanEnd}
    (goesOn : ∀ {made standing other}, Beside same made standing other →
      Shadows host calm same made (· ≠ .interrupted) (· = .interrupted) (rest standing)
        (restWhole other)) :
    Shadows host calm same made (· ≠ .interrupted) (· = .interrupted)
      ((await host readings standing).andThen fun isInterrupted standing =>
        if isInterrupted then drop pass index standing else rest standing)
      ((await calm readings other).andThen fun isInterrupted other =>
        if isInterrupted then drop pass index other else restWhole other) := by
  induction readings generalizing made standing other with
  | nil => exact goesOn beside
  | cons reading readings inductionHypothesis =>
      unfold await
      rw [Course.andThen_assoc, Course.andThen_assoc]
      have asked : Beside same made
          { standing with world := host.ask reading.query standing.world }
          { other with world := calm.ask reading.query other.world } :=
        ⟨beside.phase, follows.ask beside.world reading.query⟩
      refine .andThen_of_steady (.note asked rfl rfl) ?_
      intro made _ standing other _ beside
      rw [follows.lowered beside.world .awaiting, if_neg Bool.false_ne_true]
      by_cases raised : host.isRaised .awaiting standing.world = true
      · rw [if_pos raised]
        exact shadows_drop ⟨_, _, _, _, beside.world, raised⟩ pass index _
      · rw [if_neg raised, Course.andThen_assoc, Course.andThen_assoc]
        refine .andThen_of_steady (.note beside rfl rfl) ?_
        intro made _ standing other _ beside
        exact inductionHypothesis beside

theorem shadows_computePlan
    (loop : Loop)
    (follows : host.Follows calm same)
    (beside : Beside same made standing other)
    (pass : Nat)
    (plan : Plan)
    (window : Window) :
    Shadows host calm same made (· ≠ .interrupted) (· = .interrupted)
      (loop.computePlan host pass plan window standing)
      (loop.computePlan calm pass plan window other) := by
  unfold computePlan
  rw [follows.reader beside.world]
  refine .look follows beside .computing ?_ ?_
  · intro raises
    exact shadows_drop raises pass plan.index _
  · apply shadows_await_andThen follows beside
    intro made standing other beside
    exact shadows_conclude follows beside pass plan.index _

theorem shadows_runPlan
    (loop : Loop)
    (follows : host.Follows calm same)
    (beside : Beside same made standing other)
    (pass : Nat)
    (plan : Plan) :
    Shadows host calm same made (· ≠ .interrupted) (· = .interrupted)
      (loop.runPlan host pass plan standing) (loop.runPlan calm pass plan other) := by
  unfold runPlan
  refine .look follows beside .indexStart ?_ ?_
  · intro raises
    refine .pure_of_noticed raises ?_ _
    rfl
  · refine .andThen_of_steady (.enter beside _) ?_
    intro made _ standing other _ beside
    rw [follows.now beside.world]
    cases Window.trailing? (calm.now other.world) loop.schedule.span with
    | none => exact .halt beside _
    | some window => exact shadows_computePlan loop follows beside pass plan window

/-! ## One pass -/

/-- The pass has been interrupted. -/
def PassEnd.isInterrupted : PassEnd → Bool
  | .finished _ => false
  | .interrupted _ => true

theorem shadows_runPlans
    (loop : Loop)
    (follows : host.Follows calm same)
    (beside : Beside same made standing other)
    (plans : List Plan)
    (counts : PassReport) :
    Shadows host calm same made (·.isInterrupted = false) (·.isInterrupted = true)
      (loop.runPlans host plans counts standing) (loop.runPlans calm plans counts other) := by
  induction plans generalizing made standing other counts with
  | nil => exact .pure beside rfl
  | cons plan plans inductionHypothesis =>
      unfold runPlans
      refine .andThen (shadows_runPlan loop follows beside counts.pass plan) ?_ ?_
      · intro made planEnd standing other isPlain beside
        cases planEnd with
        | interrupted => exact absurd rfl isPlain
        | computed => exact inductionHypothesis beside _
        | failed =>
            cases policy : loop.schedule.policy with
            | abortPass => exact .pure beside rfl
            | skipIndex => exact inductionHypothesis beside _
      · rintro _ standing rfl
        refine Course.Closes.pure ?_ standing
        rfl

/-! ## Pass after pass -/

/-- The counts that a turn ends with. -/
def Sequel.summary : Sequel → Summary
  | .again summary => summary
  | .over summary => summary

/-- A turn ends the run because the flag has been noticed. -/
def Sequel.IsCut (sequel : Sequel) : Prop :=
  ∃ summary, sequel = .over summary ∧ summary.cancelled = true

theorem shadows_pause
    (loop : Loop)
    (follows : host.Follows calm same)
    (beside : Beside same made standing other)
    {summary : Summary}
    (going : summary.cancelled = false) :
    Shadows host calm same made (·.summary.cancelled = false) Sequel.IsCut
      (loop.pause host summary standing) (loop.pause calm summary other) := by
  unfold pause
  refine .look follows beside .beforeSleep ?_ ?_
  · intro raises
    exact .pure_of_noticed raises ⟨_, rfl, rfl⟩ _
  · have asleep : Beside same made
        { standing with world := host.fallAsleep loop.schedule.interval standing.world }
        { other with world := calm.fallAsleep loop.schedule.interval other.world } :=
      ⟨beside.phase, follows.fallAsleep beside.world _⟩
    refine .andThen_of_steady (.note asleep rfl rfl) ?_
    intro made _ standing other _ beside
    refine .look follows beside .asleep ?_ ?_
    · intro raises
      exact .pure_of_noticed raises ⟨_, rfl, rfl⟩ _
    · have wakes := follows.wake beside.world loop.schedule.interval
      generalize host.wake loop.schedule.interval standing.world = woken at wakes ⊢
      generalize calm.wake loop.schedule.interval other.world = otherWoken at wakes ⊢
      cases wakes with
      | none => exact .halt beside _
      | some sameWorld =>
          refine .pure ?_ going
          exact ⟨beside.phase, sameWorld⟩

theorem shadows_closePass
    (loop : Loop)
    (follows : host.Follows calm same)
    (beside : Beside same made standing other)
    {summary : Summary}
    (going : summary.cancelled = false)
    (report : PassReport) :
    Shadows host calm same made (·.summary.cancelled = false) Sequel.IsCut
      (loop.closePass host summary report standing)
      (loop.closePass calm summary report other) := by
  unfold closePass
  refine .andThen_of_steady (.report follows beside _) ?_
  intro made _ standing other _ beside
  dsimp only
  split
  · exact .pure beside going
  · refine .andThen_of_steady (.enter beside _) ?_
    intro made _ standing other _ beside
    exact shadows_pause loop follows beside going

theorem shadows_turn
    (loop : Loop)
    (follows : host.Follows calm same)
    (beside : Beside same made standing other)
    {summary : Summary}
    (going : summary.cancelled = false) :
    Shadows host calm same made (·.summary.cancelled = false) Sequel.IsCut
      (loop.turn host summary standing) (loop.turn calm summary other) := by
  unfold turn
  refine .look follows beside .passStart ?_ ?_
  · intro raises
    exact .pure_of_noticed raises ⟨_, rfl, rfl⟩ _
  · refine .andThen (shadows_runPlans loop follows beside loop.plans _) ?_ ?_
    · intro made passEnd standing other isPlain beside
      cases passEnd with
      | interrupted report => cases isPlain
      | finished report => exact shadows_closePass loop follows beside going report
    · intro passEnd standing isCut
      cases passEnd with
      | interrupted report => exact Course.Closes.pure ⟨_, rfl, rfl⟩ standing
      | finished report => cases isCut

theorem shadows_turns
    (loop : Loop)
    (follows : host.Follows calm same)
    (rounds : Nat)
    (beside : Beside same made standing other)
    {summary : Summary}
    (going : summary.cancelled = false) :
    Shadows host calm same made (·.cancelled = false) (·.cancelled = true)
      (loop.turns host rounds summary standing) (loop.turns calm rounds summary other) := by
  induction rounds generalizing made standing other summary with
  | zero => exact .halt beside _
  | succ rounds inductionHypothesis =>
      unfold turns
      refine .andThen (shadows_turn loop follows beside going) ?_ ?_
      · intro made sequel standing other isPlain beside
        obtain summary | summary := sequel
        · exact inductionHypothesis beside isPlain
        · exact .pure beside isPlain
      · rintro _ standing ⟨summary, rfl, isCancelled⟩
        refine Course.Closes.pure ?_ standing
        exact isCancelled

theorem shadows_finish
    (beside : Beside same made standing other)
    {summary : Summary}
    (going : summary.cancelled = false) :
    Shadows host calm same made (·.cancelled = false) (·.cancelled = true)
      (finish summary standing) (finish summary other) := by
  unfold finish
  refine .andThen_of_steady (.enter beside _) ?_
  intro made _ standing other _ beside
  refine .andThen_of_steady (.note beside rfl rfl) ?_
  intro made _ standing other _ beside
  exact .pure beside going

/-- A run compares with a run on the calm outside that starts in the same place. -/
theorem shadows_run
    (loop : Loop)
    (follows : host.Follows calm same)
    (beside : Beside same made standing other) :
    Shadows host calm same made (·.cancelled = false) (·.cancelled = true)
      (loop.run host standing) (loop.run calm other) := by
  unfold run start
  refine .andThen_of_steady (.note beside rfl rfl) ?_
  intro made _ standing other _ beside
  refine .andThen (shadows_turns loop follows loop.roundLimit beside rfl) ?_ ?_
  · intro made summary standing other isPlain beside
    exact shadows_finish beside isPlain
  · intro summary standing isCancelled
    refine ⟨summary, rfl, isCancelled, ?_⟩
    intro activity member
    rcases List.mem_cons.mp member with rfl | member
    · exact ⟨rfl, rfl, rfl⟩
    · rw [List.mem_singleton.mp member]
      exact ⟨rfl, rfl, rfl⟩

end Loop

end

end Refresh
end CompositeIndex
