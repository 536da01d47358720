import CompositeIndex.Time.Window

/-!
# Windows between two timestamps

The timestamps are compared as they are given, and then floored to microseconds. Two timestamps
of one microsecond are therefore accepted in their order, but nothing lies between the bounds
that they become. As soon as a microsecond begins between them, the window has at least its own
start.
-/

namespace CompositeIndex

theorem Timestamp.micros_le_micros
    {earlier later : Timestamp}
    (inOrder : earlier.nanos ≤ later.nanos) :
    earlier.micros ≤ later.micros :=
  Int.ediv_le_ediv (by decide) inOrder

namespace Window

variable {start finish : Timestamp}

/-- Nothing lies in the window. -/
def IsEmpty (window : Window) : Prop :=
  ∀ micro, window.containsMicro micro = false

theorem containsMicro_eq_true_iff {window : Window} {micro : Int} :
    window.containsMicro micro = true ↔ window.start ≤ micro ∧ micro < window.finish := by
  rw [containsMicro, Bool.and_eq_true, decide_eq_true_iff, decide_eq_true_iff]

theorem isEmpty_iff {window : Window} : window.IsEmpty ↔ window.finish ≤ window.start := by
  constructor
  · intro isEmpty
    refine Int.not_lt.mp fun notEmpty => ?_
    have contained := containsMicro_eq_true_iff.mpr ⟨Int.le_refl window.start, notEmpty⟩
    rw [isEmpty window.start] at contained
    cases contained
  · intro notAfter micro
    refine Bool.eq_false_iff.mpr fun contained => ?_
    obtain ⟨atLeast, below⟩ := containsMicro_eq_true_iff.mp contained
    omega

/-- A window that is not empty has its own start. -/
theorem containsMicro_start_iff {window : Window} :
    window.containsMicro window.start = true ↔ ¬window.IsEmpty := by
  rw [isEmpty_iff, containsMicro_eq_true_iff, Int.not_le]
  exact and_iff_right (Int.le_refl _)

/-! ## What is accepted -/

theorem between_of_le (notAfter : finish.nanos ≤ start.nanos) :
    between start finish = .error (.invalid .emptyWindow) :=
  if_pos notAfter

/-- Timestamps in the right order are refused for the calendar only. -/
theorem between_of_lt (inOrder : start.nanos < finish.nanos) :
    between start finish =
      if start.toUtc?.isSome ∧ finish.toUtc?.isSome then .ok ⟨start.micros, finish.micros⟩
      else .error .outsideCalendar := by
  rw [between, if_neg (Int.not_le.mpr inOrder)]
  cases start.toUtc? <;> cases finish.toUtc? <;> rfl

theorem between_eq_ok_iff {window : Window} :
    between start finish = .ok window ↔
      start.nanos < finish.nanos ∧ (start.toUtc?.isSome ∧ finish.toUtc?.isSome) ∧
        window = ⟨start.micros, finish.micros⟩ := by
  rcases Int.lt_or_le start.nanos finish.nanos with inOrder | notAfter
  · rw [between_of_lt inOrder]
    by_cases inUtc : start.toUtc?.isSome ∧ finish.toUtc?.isSome
    · rw [if_pos inUtc]
      exact ⟨fun same => ⟨inOrder, inUtc, (Except.ok.inj same).symm⟩,
        fun ⟨_, _, same⟩ => congrArg _ same.symm⟩
    · rw [if_neg inUtc]
      exact ⟨nofun, fun ⟨_, isInUtc, _⟩ => absurd isInUtc inUtc⟩
  · rw [between_of_le notAfter]
    exact ⟨nofun, fun ⟨inOrder, _⟩ => absurd inOrder (Int.not_lt.mpr notAfter)⟩

/-- What a window between two timestamps holds: nothing if they are of one microsecond, and
otherwise at least its own start. -/
structure Holds (start finish : Timestamp) (window : Window) : Prop where
  inOrder : window.start ≤ window.finish
  isProper : window.start < window.finish ↔ start.micros < finish.micros
  isEmpty : window.IsEmpty ↔ start.micros = finish.micros
  ownStart : window.containsMicro window.start = true ↔ start.micros < finish.micros
  given : window.contains start = true ↔ start.micros < finish.micros

theorem holds_of_between
    {window : Window}
    (accepted : between start finish = .ok window) :
    Holds start finish window := by
  obtain ⟨inOrder, _, rfl⟩ := between_eq_ok_iff.mp accepted
  have micros := Timestamp.micros_le_micros (Int.le_of_lt inOrder)
  have isEmpty : (⟨start.micros, finish.micros⟩ : Window).IsEmpty ↔
      start.micros = finish.micros := by
    rw [isEmpty_iff]
    exact ⟨Int.le_antisymm micros, fun same => Int.le_of_eq same.symm⟩
  have ownStart : (⟨start.micros, finish.micros⟩ : Window).containsMicro start.micros = true ↔
      start.micros < finish.micros := by
    rw [containsMicro_start_iff, isEmpty]
    omega
  exact ⟨micros, Iff.rfl, isEmpty, ownStart, ownStart⟩

/-- How the question for a window between two timestamps is answered: it is refused if the
second one is not the later one, it has no answer if one of them does not exist in UTC, and what
is accepted is empty if and only if both are of one microsecond. -/
theorem between_spec (start finish : Timestamp) :
    (between start finish = .error (.invalid .emptyWindow) ↔ finish.nanos ≤ start.nanos) ∧
    (between start finish = .error .outsideCalendar ↔
      start.nanos < finish.nanos ∧ ¬(start.toUtc?.isSome ∧ finish.toUtc?.isSome)) ∧
    ((∃ window, between start finish = .ok window) ↔
      start.nanos < finish.nanos ∧ start.toUtc?.isSome ∧ finish.toUtc?.isSome) ∧
    ∀ window, between start finish = .ok window → Holds start finish window := by
  refine ⟨?refused, ?outside, ?accepted, fun window => holds_of_between⟩
  case refused =>
    refine ⟨fun refused => Int.not_lt.mp fun inOrder => ?_, between_of_le⟩
    rw [between_of_lt inOrder] at refused
    split at refused <;> cases refused
  case outside =>
    rcases Int.lt_or_le start.nanos finish.nanos with inOrder | notAfter
    · rw [between_of_lt inOrder]
      split
      next inUtc => exact ⟨nofun, fun ⟨_, notInUtc⟩ => absurd inUtc notInUtc⟩
      next notInUtc => exact ⟨fun _ => ⟨inOrder, notInUtc⟩, fun _ => rfl⟩
    · rw [between_of_le notAfter]
      exact ⟨nofun, fun ⟨inOrder, _⟩ => absurd inOrder (Int.not_lt.mpr notAfter)⟩
  case accepted =>
    constructor
    · rintro ⟨window, accepted⟩
      obtain ⟨inOrder, inUtc, _⟩ := between_eq_ok_iff.mp accepted
      exact ⟨inOrder, inUtc⟩
    · rintro ⟨inOrder, inUtc⟩
      exact ⟨_, between_eq_ok_iff.mpr ⟨inOrder, inUtc, rfl⟩⟩

/-- Two hundred nanoseconds around the beginning of a microsecond make up a window that has its
own start. -/
theorem between_spec_sample :
    let start : Timestamp := ⟨1772452800000000900, 3600, by decide⟩
    let finish : Timestamp := ⟨1772452800000001100, -7200, by decide⟩
    let window : Window := ⟨1772452800000000, 1772452800000001⟩
    between start finish = .ok window ∧ window.start < window.finish ∧
      window.containsMicro window.start = true := by
  intro start finish window
  have accepted : between start finish = .ok window := by rfl
  have holds := (between_spec start finish).2.2.2 window accepted
  exact ⟨accepted, holds.isProper.mpr (by decide), holds.ownStart.mpr (by decide)⟩

/-- A hundred nanoseconds inside a microsecond are accepted, but the window is empty. -/
theorem between_accepts_empty :
    let start : Timestamp := ⟨1772452800000000100, 0, by decide⟩
    let finish : Timestamp := ⟨1772452800000000200, 0, by decide⟩
    ∃ window, between start finish = .ok window ∧ ¬window.start < window.finish ∧
      window.containsMicro window.start = false := by
  intro start finish
  exact ⟨⟨1772452800000000, 1772452800000000⟩, rfl, by decide, by decide⟩

end Window
end CompositeIndex
