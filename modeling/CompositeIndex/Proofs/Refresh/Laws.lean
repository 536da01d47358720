import CompositeIndex.Proofs.Refresh.Passes

/-!
# Laws about what a run does

A law says of an activity whether it may follow on what has been done before, as far as this
consists of phases and reports. `Obeys` says of a part of a run that is begun in a certain past
that it does nothing unlawful, that it leaves the loop in the phase that was entered last, and
what the past has become if the part has an answer. Parts that obey a law are put together to
parts that obey it.
-/

namespace CompositeIndex
namespace Refresh

/-- The phases that have been entered and the reports that have been handed over. -/
structure Past where
  phases : List Phase := []
  reports : List Report := []

namespace Past

/-- The past once another phase has been entered. -/
def enter (past : Past) (next : Phase) : Past :=
  { past with phases := past.phases ++ [next] }

/-- The past once another report has been handed over. -/
def hand (past : Past) (report : Report) : Past :=
  { past with reports := past.reports ++ [report] }

/-- The past after one more activity. -/
def add (past : Past) : Activity → Past
  | .entered _ next => past.enter next
  | .reported report _ => past.hand report
  | _ => past

/-- The past after a trace. -/
def after (past : Past) (trace : Trace) : Past :=
  trace.foldl add past

theorem after_append (past : Past) (trace more : Trace) :
    past.after (trace ++ more) = (past.after trace).after more :=
  List.foldl_append

/-- The past grows by the phases and the reports of a trace. -/
theorem after_eq (past : Past) (trace : Trace) :
    past.after trace = ⟨past.phases ++ trace.phases, past.reports ++ trace.reports⟩ := by
  induction trace generalizing past with
  | nil => simp [after, Trace.phases, Trace.reports]
  | cons activity trace inductionHypothesis =>
      rw [after, List.foldl_cons, ← after, inductionHypothesis]
      cases activity <;>
        simp [add, enter, hand, Trace.phases, Trace.reports, Activity.phase?, Activity.report?,
          List.filterMap_cons]

/-- The phase in which a loop stands that began in another one. -/
def phase (past : Past) (first : Phase) : Phase :=
  past.phases.getLast?.getD first

@[simp] theorem phase_enter (past : Past) (next first : Phase) :
    (past.enter next).phase first = next := by
  simp [phase, enter]

end Past

/-- The past that a trace makes. -/
def Trace.past (trace : Trace) : Past :=
  ⟨trace.phases, trace.reports⟩

theorem Trace.after_past (trace : Trace) : Past.after {} trace = trace.past :=
  Past.after_eq {} trace

namespace Course

/-- A part of a run of a loop that began in the phase `first`: what it does is lawful in its
past, and its answer fits what the past has become. -/
structure Obeys
    (law : Past → Activity → Prop)
    (first : Phase)
    (past : Past)
    (course : Course σ α)
    (post : α → Past → Prop) : Prop where
  lawful : ∀ before activity after, course.trace = before ++ activity :: after →
    law (past.after before) activity
  phase : course.standing.phase = (past.after course.trace).phase first
  post : ∀ answer, course.result = .ok answer → post answer (past.after course.trace)

namespace Obeys

variable {law : Past → Activity → Prop} {first : Phase} {past : Past}
variable {standing : Standing σ} {post : α → Past → Prop}

theorem pure
    {answer : α}
    (here : standing.phase = past.phase first)
    (holds : post answer past) :
    (Course.pure answer standing).Obeys law first past post where
  lawful := by
    intro before activity after split
    cases before <;> cases split
  phase := here
  post := by
    rintro _ ⟨⟩
    exact holds

theorem halt
    (reason : Halt)
    (here : standing.phase = past.phase first) :
    (Course.halt reason standing : Course σ α).Obeys law first past post where
  lawful := by
    intro before activity after split
    cases before <;> cases split
  phase := here
  post := by
    rintro answer ⟨⟩

/-- A part that does a single thing. -/
theorem of_single
    {course : Course σ α}
    {activity : Activity}
    (single : course.trace = [activity])
    (lawful : law past activity)
    (here : course.standing.phase = (past.add activity).phase first)
    (holds : ∀ answer, post answer (past.add activity)) :
    course.Obeys law first past post where
  lawful := by
    intro before other after split
    rw [single] at split
    cases before with
    | nil =>
        cases split
        exact lawful
    | cons earlier before =>
        injection split with _ rest
        cases before <;> cases rest
  phase := by
    rw [single]
    exact here
  post := by
    intro answer _
    rw [single]
    exact holds answer

/-- What the second part obeys depends on what the first one leaves. -/
theorem andThen
    {course : Course σ α}
    {earlier : α → Past → Prop}
    (isFirst : course.Obeys law first past earlier)
    {next : α → Standing σ → Course σ β}
    {post : β → Past → Prop}
    (isSecond : ∀ answer past standing, standing.phase = past.phase first →
      earlier answer past → (next answer standing).Obeys law first past post) :
    (course.andThen next).Obeys law first past post := by
  unfold Course.andThen
  cases result : course.result with
  | error reason => exact ⟨isFirst.lawful, isFirst.phase, nofun⟩
  | ok answer =>
      have rest := isSecond answer _ course.standing isFirst.phase (isFirst.post answer result)
      refine ⟨?lawful, ?phase, ?post⟩
      case lawful =>
        intro before activity after split
        rcases List.append_eq_append_iff.mp split with
          ⟨more, rfl, restSplit⟩ | ⟨more, traceSplit, restSplit⟩
        · rw [Past.after_append]
          exact rest.lawful more activity after restSplit
        · cases more with
          | nil =>
              rw [List.append_nil] at traceSplit
              rw [← traceSplit]
              exact rest.lawful [] activity after restSplit.symm
          | cons other more =>
              injection restSplit with same _
              exact isFirst.lawful before activity more (same ▸ traceSplit)
      case phase =>
        rw [rest.phase, Past.after_append]
      case post =>
        intro last returns
        rw [Past.after_append]
        exact rest.post last returns

/-- A single thing is done in front of what follows. -/
theorem single_andThen
    {course : Course σ α}
    {activity : Activity}
    (single : course.trace = [activity])
    (lawful : law past activity)
    (here : course.standing.phase = (past.add activity).phase first)
    {next : α → Standing σ → Course σ β}
    {post : β → Past → Prop}
    (rest : ∀ answer standing, standing.phase = (past.add activity).phase first →
      (next answer standing).Obeys law first (past.add activity) post) :
    (course.andThen next).Obeys law first past post := by
  have done : course.Obeys law first past fun _ later => later = past.add activity :=
    .of_single single lawful here fun _ => rfl
  refine done.andThen ?_
  rintro answer _ standing here rfl
  exact rest answer standing here

/-- Something is noted that is neither the entry into a phase nor a report. -/
theorem note_andThen
    {activity : Activity}
    (isQuiet : past.add activity = past)
    (lawful : law past activity)
    (here : standing.phase = past.phase first)
    {next : Unit → Standing σ → Course σ α}
    (rest : ∀ standing, standing.phase = past.phase first →
      (next () standing).Obeys law first past post) :
    ((Course.note activity standing).andThen next).Obeys law first past post := by
  refine .single_andThen rfl lawful ?_ ?_
  · rw [isQuiet]
    exact here
  · rw [isQuiet]
    exact fun _ => rest

theorem enter_andThen
    {phase : Phase}
    (lawful : law past (.entered standing.phase phase))
    {next : Unit → Standing σ → Course σ α}
    (rest : ∀ standing, standing.phase = (past.enter phase).phase first →
      (next () standing).Obeys law first (past.enter phase) post) :
    ((Course.enter phase standing).andThen next).Obeys law first past post :=
  .single_andThen rfl lawful (Past.phase_enter past phase first).symm fun _ => rest

theorem report_andThen
    {host : Host σ}
    {report : Report}
    (lawful : ∀ aside, law past (.reported report aside))
    (here : standing.phase = past.phase first)
    {next : Unit → Standing σ → Course σ α}
    (rest : ∀ standing, standing.phase = (past.hand report).phase first →
      (next () standing).Obeys law first (past.hand report) post) :
    ((Course.report host report standing).andThen next).Obeys law first past post :=
  .single_andThen rfl (lawful _) here fun _ => rest

end Obeys
end Course
end Refresh
end CompositeIndex
