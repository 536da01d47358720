import CompositeIndex.Proofs.Refresh.Uninterrupted

/-!
# The itinerary of an undisturbed run

On an outside that runs like clockwork, the schedule and the clock alone decide which passes a
run makes, in which windows, and whether the clock leaves the calendar before the run is over.
All of this can be worked out without a store, and is the `Itinerary` of the run. What the
store answers shows in the reports of the passes only.
-/

namespace CompositeIndex
namespace Refresh

/-- Nothing disturbs a run in calm worlds, and a sleep has an end only where the clock can be
moved by its duration. -/
structure Host.IsClockwork
    (host : Host σ)
    (reader : Reader)
    (clock : σ → ManualClock)
    (calm : σ → Prop) : Prop extends host.IsSteady reader clock calm where
  stuck : ∀ duration world, calm world →
    (clock world).advance? duration = none → host.wake duration world = none

/-- A rehearsal without events runs like clockwork. -/
theorem Rehearsal.isClockwork_of_isQuiet
    {script : Script C}
    (quiet : script.IsQuiet)
    (backend : Backend S C)
    (store : S) :
    (host backend script).IsClockwork (backend.reader store) World.clock
      (World.IsCalm store) where
  toIsSteady := isSteady_of_isQuiet quiet backend store
  stuck := fun duration world _ unmoved => by
    change (world.clock.advance? duration).map _ = none
    rw [unmoved, Option.map_none]

/-! ## How a part of a run ends -/

/-- The part of a run has this result and hands over these reports. -/
structure Ends
    (course : Course σ α)
    (result : Except Halt α)
    (reports : List Report) : Prop where
  result : course.result = result
  reports : course.trace.reports = reports

section

variable {host : Host σ} {reader : Reader} {clock : σ → ManualClock} {calm : σ → Prop}
variable {time : ManualClock} {standing : Standing σ}

theorem Yields.ends
    {course : Course σ α}
    {answer : α}
    {reports : List Report}
    (yields : Yields clock calm course answer reports time) :
    Ends course (.ok answer) reports :=
  ⟨yields.result, yields.reports⟩

/-- Of two parts the second starts where the first has ended. -/
theorem Ends.andThen
    {course : Course σ α}
    {next : α → Standing σ → Course σ β}
    {answer : α}
    {result : Except Halt β}
    {reports more : List Report}
    (first : Yields clock calm course answer reports time)
    (second : ∀ standing, Shows clock calm time standing.world →
      Ends (next answer standing) result more) :
    Ends (course.andThen next) result (reports ++ more) := by
  have rest := second course.standing first.shows
  unfold Course.andThen
  rw [first.result]
  refine ⟨rest.result, ?_⟩
  rw [← first.reports, ← rest.reports]
  exact List.filterMap_append

/-- What follows a part without reports has the reports to itself. -/
theorem Ends.andThen_silent
    {course : Course σ α}
    {next : α → Standing σ → Course σ β}
    {answer : α}
    {result : Except Halt β}
    {reports : List Report}
    (first : Yields clock calm course answer [] time)
    (second : ∀ standing, Shows clock calm time standing.world →
      Ends (next answer standing) result reports) :
    Ends (course.andThen next) result reports :=
  andThen first second

/-- Nothing follows a part that breaks off. -/
theorem Ends.andThen_of_error
    {course : Course σ α}
    {reason : Halt}
    {reports : List Report}
    (breaks : Ends course (.error reason) reports)
    (next : α → Standing σ → Course σ β) :
    Ends (course.andThen next) (.error reason) reports := by
  unfold Course.andThen
  rw [breaks.result]
  exact ⟨rfl, breaks.reports⟩

/-! ## Leaving the calendar -/

namespace Loop

variable {loop : Loop}

/-- A sleep that would leave the calendar has no end. -/
theorem ends_pause_of_stuck
    (clockwork : host.IsClockwork reader clock calm)
    (summary : Summary)
    (stuck : time.sleep? loop.schedule.interval = none)
    (shows : Shows clock calm time standing.world) :
    Ends (loop.pause host summary standing) (.error .leftCalendar) [] := by
  rw [pause, if_neg (by simp [clockwork.lowered _ _ shows.isCalm])]
  refine .andThen_silent (.note rfl (clockwork.shows_fallAsleep _ shows))
    fun standing shows => ?_
  rw [if_neg (by simp [clockwork.lowered _ _ shows.isCalm])]
  rw [clockwork.stuck _ _ shows.isCalm (by rw [shows.clock_eq]; exact stuck)]
  exact ⟨rfl, rfl⟩

/-- A turn can break off in its pause, when its pass has been reported already. -/
theorem ends_turn_of_stuck
    (clockwork : host.IsClockwork reader clock calm)
    {window : Window}
    (inRange : ∀ plan ∈ loop.plans,
      Window.trailing? time.now loop.schedule.span = some window)
    {summary : Summary}
    (notLast : loop.schedule.endsAfter (summary.passes + 1) = false)
    (stuck : time.sleep? loop.schedule.interval = none)
    (shows : Shows clock calm time standing.world) :
    Ends (loop.turn host summary standing) (.error .leftCalendar)
      (loop.turnReports reader (summary.passes + 1) window) := by
  rw [turn, if_neg (by simp [clockwork.lowered _ _ shows.isCalm]), runPass]
  refine .andThen (yields_runPlans clockwork.toIsSteady _ inRange _ shows)
    fun standing shows => ?_
  refine .andThen (.report clockwork.toIsSteady _ shows) fun standing shows => ?_
  simp only [Summary.record, notLast, Bool.false_eq_true, if_false]
  refine .andThen_silent (.enter _ shows) fun standing shows => ?_
  exact ends_pause_of_stuck clockwork _ stuck shows

/-- A turn without a window breaks off at its first index. -/
theorem ends_turn_of_outside
    (clockwork : host.IsClockwork reader clock calm)
    (hasPlans : loop.plans ≠ [])
    (outside : Window.trailing? time.now loop.schedule.span = none)
    (summary : Summary)
    (shows : Shows clock calm time standing.world) :
    Ends (loop.turn host summary standing) (.error .leftCalendar) [] := by
  obtain ⟨plan, plans, listed⟩ := List.exists_cons_of_ne_nil hasPlans
  rw [turn, if_neg (by simp [clockwork.lowered _ _ shows.isCalm]), runPass, listed, runPlans]
  refine .andThen_of_error (.andThen_of_error ?_ _) _
  rw [runPlan, if_neg (by simp [clockwork.lowered _ _ shows.isCalm])]
  refine .andThen_silent (.enter _ shows) fun standing shows => ?_
  rw [clockwork.now _ shows.isCalm, shows.clock_eq, outside]
  exact ⟨rfl, rfl⟩

end Loop

/-! ## The passes of a run -/

/-- The passes that are made, by their windows, and why the run breaks off behind them, unless
it comes to its end. -/
structure Itinerary where
  windows : List Window
  halt : Option Halt

/-- The result of a run, its counts behind the last pass being given. -/
def Itinerary.result (itinerary : Itinerary) (summary : Summary) : Except Halt Summary :=
  match itinerary.halt with
  | none => .ok summary
  | some reason => .error reason

namespace Loop

/-- The window of a pass that begins now. A pass without indexes needs none, so that any
window will do. -/
def window? (loop : Loop) (now : Timestamp) : Option Window :=
  if loop.plans.isEmpty then some ⟨now.micros, now.micros⟩
  else Window.trailing? now loop.schedule.span

/-- The passes of at most `rounds` turns behind a number of earlier passes. -/
def itinerary (loop : Loop) : (rounds passes : Nat) → ManualClock → Itinerary
  | 0, _, _ => ⟨[], some .passesExhausted⟩
  | rounds + 1, passes, time =>
      match loop.window? time.now with
      | none => ⟨[], some .leftCalendar⟩
      | some window =>
          if loop.schedule.endsAfter (passes + 1) then ⟨[window], none⟩
          else
            match time.sleep? loop.schedule.interval with
            | none => ⟨[window], some .leftCalendar⟩
            | some later =>
                let rest := loop.itinerary rounds (passes + 1) later
                { rest with windows := window :: rest.windows }

/-- The reports of passes with these windows, the first of which has this number. -/
def reportsFrom (loop : Loop) (reader : Reader) : (pass : Nat) → List Window → List Report
  | _, [] => []
  | pass, window :: windows =>
      loop.turnReports reader pass window ++ loop.reportsFrom reader (pass + 1) windows

/-- The counts behind passes with these windows. -/
def countsAfter (loop : Loop) (reader : Reader) (summary : Summary) : List Window → Summary :=
  List.foldl
    (fun summary window => summary.record (loop.passReport reader (summary.passes + 1) window))
    summary

variable {loop : Loop}

/-- A window that has been found is that of every index of the pass. -/
theorem trailing?_of_window?
    {now : Timestamp}
    {window : Window}
    (found : loop.window? now = some window)
    {plan : Plan}
    (listed : plan ∈ loop.plans) :
    Window.trailing? now loop.schedule.span = some window := by
  rw [window?, if_neg (by simp [List.ne_nil_of_mem listed])] at found
  exact found

theorem outside_of_window?
    {now : Timestamp}
    (missing : loop.window? now = none) :
    loop.plans ≠ [] ∧ Window.trailing? now loop.schedule.span = none := by
  unfold window? at missing
  split at missing
  · cases missing
  · next hasPlans => exact ⟨by simpa using hasPlans, missing⟩

theorem passes_countsAfter
    (loop : Loop)
    (reader : Reader)
    (summary : Summary)
    (windows : List Window) :
    (loop.countsAfter reader summary windows).passes = summary.passes + windows.length := by
  unfold countsAfter
  induction windows generalizing summary with
  | nil => rfl
  | cons window windows inductionHypothesis =>
      rw [List.foldl_cons, inductionHypothesis, List.length_cons]
      exact Nat.add_right_comm summary.passes 1 windows.length

/-- Turns follow the itinerary. -/
theorem ends_turns
    (clockwork : host.IsClockwork reader clock calm)
    (rounds : Nat)
    {summary : Summary}
    (shows : Shows clock calm time standing.world) :
    let itinerary := loop.itinerary rounds summary.passes time
    Ends (loop.turns host rounds summary standing)
      (itinerary.result (loop.countsAfter reader summary itinerary.windows))
      (loop.reportsFrom reader (summary.passes + 1) itinerary.windows) := by
  induction rounds generalizing summary time standing with
  | zero => exact ⟨rfl, rfl⟩
  | succ rounds inductionHypothesis =>
      have steady := clockwork.toIsSteady
      rw [turns, itinerary]
      cases found : loop.window? time.now with
      | none =>
          obtain ⟨hasPlans, outside⟩ := outside_of_window? found
          exact .andThen_of_error
            (ends_turn_of_outside clockwork hasPlans outside summary shows) _
      | some window =>
          have inRange : ∀ plan ∈ loop.plans,
              Window.trailing? time.now loop.schedule.span = some window :=
            fun _ => trailing?_of_window? found
          cases last : loop.schedule.endsAfter (summary.passes + 1) with
          | true =>
              exact .andThen (yields_turn_last steady inRange last shows)
                fun standing shows => ⟨rfl, rfl⟩
          | false =>
              cases slept : time.sleep? loop.schedule.interval with
              | none =>
                  simp only [Bool.false_eq_true, if_false]
                  rw [reportsFrom, reportsFrom, List.append_nil]
                  exact .andThen_of_error
                    (ends_turn_of_stuck clockwork inRange last slept shows) _
              | some later =>
                  simp only [Bool.false_eq_true, if_false]
                  exact .andThen (yields_turn_again steady inRange last slept shows)
                    fun standing shows => inductionHypothesis shows

/-- Behind its last turn a run reports nothing more. -/
theorem ends_andThen_finish
    {course : Course σ Summary}
    {result : Except Halt Summary}
    {reports : List Report}
    (turns : Ends course result reports) :
    Ends (course.andThen finish) result reports := by
  cases result with
  | error reason => exact turns.andThen_of_error finish
  | ok summary =>
      unfold Course.andThen
      rw [turns.result]
      refine ⟨rfl, ?_⟩
      change (course.trace ++ (finish summary course.standing).trace).filterMap _ = reports
      rw [List.filterMap_append, ← turns.reports]
      exact List.append_nil _

/-- The passes of a run that sets out at this time. -/
def runItinerary (loop : Loop) (time : ManualClock) : Itinerary :=
  loop.itinerary loop.roundLimit 0 time

/-- A run follows its itinerary. -/
theorem ends_run
    (clockwork : host.IsClockwork reader clock calm)
    (shows : Shows clock calm time standing.world) :
    let itinerary := loop.runItinerary time
    Ends (loop.run host standing)
      (itinerary.result (loop.countsAfter reader {} itinerary.windows))
      (loop.reportsFrom reader 1 itinerary.windows) := by
  intro itinerary
  rw [run]
  refine .andThen_silent (.note rfl shows) fun standing shows => ?_
  exact ends_andThen_finish (ends_turns clockwork loop.roundLimit shows)

end Loop

end

end Refresh
end CompositeIndex
