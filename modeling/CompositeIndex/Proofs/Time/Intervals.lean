import CompositeIndex.Proofs.Time.Bounds

/-!
# Windows as intervals of instants

A window keeps its bounds in microseconds and compares a timestamp with them by its microsecond.
Because the bounds are whole microseconds, this is the same as comparing the exact instants, so
that flooring a point before it is stored moves it neither into a window nor out of it. For the
same reason windows that meet in a timestamp share out what lies between their outer bounds, and
a trailing window is longer than its span by less than a microsecond.
-/

namespace CompositeIndex

namespace Timestamp

variable {timestamp : Timestamp} {micro : Int}

theorem le_micros_iff : micro ≤ timestamp.micros ↔ micro * nanosPerMicro ≤ timestamp.nanos :=
  Int.le_ediv_iff_mul_le (by decide)

theorem micros_lt_iff : timestamp.micros < micro ↔ timestamp.nanos < micro * nanosPerMicro :=
  Int.ediv_lt_iff_lt_mul (by decide)

@[simp] theorem micros_truncate : timestamp.truncate.micros = timestamp.micros :=
  Int.mul_ediv_cancel _ (by decide)

theorem isSome_ofNanos?_iff {nanos offset : Int} :
    (ofNanos? nanos offset).isSome = true ↔
      Calendar.Covers (nanos + offset * nanosPerSecond) := by
  unfold ofNanos?
  split <;> simp [*]

/-- A timestamp exists in UTC if the calendar covers its instant. -/
theorem isSome_toUtc?_iff :
    timestamp.toUtc?.isSome = true ↔ Calendar.Covers timestamp.nanos := by
  rw [toUtc?, isSome_ofNanos?_iff, Int.zero_mul, Int.add_zero]

end Timestamp

namespace Window

/-- The first instant of the window, in nanoseconds from the epoch. -/
def startNanos (window : Window) : Int :=
  window.start * nanosPerMicro

/-- The first instant after the window, in nanoseconds from the epoch. -/
def finishNanos (window : Window) : Int :=
  window.finish * nanosPerMicro

/-- The nanoseconds from the start of the window to its end. -/
def lengthNanos (window : Window) : Int :=
  window.finishNanos - window.startNanos

theorem contains_eq_true_iff {window : Window} {timestamp : Timestamp} :
    window.contains timestamp = true ↔
      window.startNanos ≤ timestamp.nanos ∧ timestamp.nanos < window.finishNanos := by
  rw [contains, containsMicro_eq_true_iff, Timestamp.le_micros_iff, Timestamp.micros_lt_iff]
  rfl

theorem contains_truncate (window : Window) (timestamp : Timestamp) :
    window.contains timestamp.truncate = window.contains timestamp := by
  rw [contains, Timestamp.micros_truncate, contains]

/-! ## Trailing windows -/

variable {finish : Timestamp} {span : Duration}

theorem nanos_effectiveSpan (span : Duration) :
    (effectiveSpan span).nanos = if 0 < span.nanos then span.nanos else nanosPerSecond := by
  rw [effectiveSpan, Duration.orElse, Duration.isPositive]
  by_cases positive : 0 < span.nanos
  · rw [if_pos (decide_eq_true positive), if_pos positive]
  · rw [if_neg (mt of_decide_eq_true positive), if_neg positive]
    rfl

theorem effectiveSpan_pos (span : Duration) : 0 < (effectiveSpan span).nanos := by
  rw [nanos_effectiveSpan]
  split
  · assumption
  · decide

/-- The end exists in UTC, and once it is floored so does what lies a span before it. -/
def HasRoom (finish : Timestamp) (span : Duration) : Prop :=
  Calendar.Covers finish.nanos ∧
    Calendar.Covers (finish.floorNanos - (effectiveSpan span).nanos)

/-- The window of a span that ends in the microsecond of a timestamp, wherever it lies. -/
def endingAt (finish : Timestamp) (span : Duration) : Window where
  start := (finish.floorNanos - (effectiveSpan span).nanos) / nanosPerMicro
  finish := finish.micros

/-- The start of the window has to exist in UTC, where the end is floored first. -/
theorem trailing?_of_toUtc?
    {utc : Timestamp}
    (isUtc : finish.toUtc? = some utc) :
    trailing? finish span =
      (Timestamp.ofNanos? (finish.floorNanos - (effectiveSpan span).nanos) 0).map
        fun _ => endingAt finish span := by
  obtain ⟨sameNanos, noOffset⟩ := Timestamp.ofNanos?_eq_some_iff.mp isUtc
  have sameMicros : utc.micros = finish.micros := by
    rw [Timestamp.micros, sameNanos, Timestamp.micros]
  have floored : utc.truncate.nanos = finish.floorNanos :=
    congrArg (· * nanosPerMicro) sameMicros
  have starts : utc.truncate.back? (effectiveSpan span) =
      Timestamp.ofNanos? (finish.floorNanos - (effectiveSpan span).nanos) 0 := by
    rw [Timestamp.back?, floored]
    exact congrArg _ noOffset
  simp only [trailing?, isUtc, Option.bind_eq_bind, Option.bind_some, starts,
    Timestamp.micros_truncate, sameMicros]
  cases found : Timestamp.ofNanos? (finish.floorNanos - (effectiveSpan span).nanos) 0 with
  | none => rfl
  | some first =>
      have firstMicros : first.micros = (endingAt finish span).start :=
        congrArg (· / nanosPerMicro) (Timestamp.ofNanos?_eq_some_iff.mp found).1
      rw [Option.bind_some, firstMicros]
      rfl

theorem trailing?_eq_some_iff {window : Window} :
    trailing? finish span = some window ↔
      HasRoom finish span ∧ window = endingAt finish span := by
  rw [HasRoom, ← Timestamp.isSome_toUtc?_iff]
  cases isUtc : finish.toUtc? with
  | none => simp [trailing?, isUtc]
  | some utc =>
      have starts := @Timestamp.isSome_ofNanos?_iff
        (finish.floorNanos - (effectiveSpan span).nanos) 0
      rw [Int.zero_mul, Int.add_zero] at starts
      rw [trailing?_of_toUtc? isUtc, ← starts]
      cases Timestamp.ofNanos? (finish.floorNanos - (effectiveSpan span).nanos) 0 <;>
        simp [eq_comm]

/-- What the window of a span that ends at a timestamp looks like: it ends with the floored
timestamp, and rounding its start makes it longer by less than a microsecond. -/
structure Trails (finish : Timestamp) (span : Duration) (window : Window) : Prop where
  ends : window.finishNanos = finish.floorNanos
  notEmpty : ¬window.IsEmpty
  /-- A span that is not positive is taken for a second. -/
  atLeast : (if 0 < span.nanos then span.nanos else nanosPerSecond) ≤ window.lengthNanos
  below : window.lengthNanos <
    (if 0 < span.nanos then span.nanos else nanosPerSecond) + nanosPerMicro

theorem trails_endingAt (finish : Timestamp) (span : Duration) :
    Trails finish span (endingAt finish span) := by
  have positive := effectiveSpan_pos span
  have starts : (endingAt finish span).startNanos =
      (finish.floorNanos - (effectiveSpan span).nanos) / nanosPerMicro * nanosPerMicro := rfl
  have ends : (endingAt finish span).finishNanos = finish.floorNanos := rfl
  have reaches : (effectiveSpan span).nanos ≤ (endingAt finish span).lengthNanos ∧
      (endingAt finish span).lengthNanos < (effectiveSpan span).nanos + nanosPerMicro := by
    rw [lengthNanos, starts, ends, nanosPerMicro]
    omega
  rw [nanos_effectiveSpan] at reaches
  refine ⟨ends, ?_, reaches.1, reaches.2⟩
  rw [isEmpty_iff, Int.not_le]
  -- an end that is a whole microsecond, less something, is floored to an earlier one
  have earlier : finish.floorNanos - (effectiveSpan span).nanos <
      finish.micros * nanosPerMicro := by
    rw [Timestamp.floorNanos]
    omega
  exact Int.ediv_lt_of_lt_mul (by decide) earlier

/-! ## Windows that meet -/

/-- Two windows share out a third one: what lies in it lies in one of them, and nothing lies in
both. -/
structure SharesOut (whole left right : Window) : Prop where
  covered : ∀ timestamp,
    whole.contains timestamp = (left.contains timestamp ^^ right.contains timestamp)
  disjoint : ∀ timestamp, (left.contains timestamp && right.contains timestamp) = false

theorem sharesOut_of_le
    {first middle last : Int}
    (left : first ≤ middle)
    (right : middle ≤ last) :
    SharesOut ⟨first, last⟩ ⟨first, middle⟩ ⟨middle, last⟩ where
  covered := by
    intro timestamp
    simp only [contains, containsMicro]
    by_cases before : timestamp.micros < middle
    · have inWhole : timestamp.micros < last := Int.lt_of_lt_of_le before right
      have notRight : ¬middle ≤ timestamp.micros := Int.not_le.mpr before
      simp [before, inWhole, notRight]
    · have notBefore : middle ≤ timestamp.micros := Int.not_lt.mp before
      have inWhole : first ≤ timestamp.micros := Int.le_trans left notBefore
      simp [before, inWhole, notBefore]
  disjoint := by
    intro timestamp
    simp only [contains, containsMicro]
    by_cases before : timestamp.micros < middle
    · simp [Int.not_le.mpr before]
    · simp [before]

theorem between_of_covers
    {start finish : Timestamp}
    (inOrder : start.nanos < finish.nanos)
    (startCovered : Calendar.Covers start.nanos)
    (finishCovered : Calendar.Covers finish.nanos) :
    between start finish = .ok ⟨start.micros, finish.micros⟩ := by
  refine between_eq_ok_iff.mpr ⟨inOrder, ⟨?_, ?_⟩, rfl⟩
  · exact Timestamp.isSome_toUtc?_iff.mpr startCovered
  · exact Timestamp.isSome_toUtc?_iff.mpr finishCovered

/-! ## Main theorem -/

/-- Windows are half-open intervals of exact instants, whichever offsets timestamps are shown
in. A trailing window is there if the calendar has room for it, and is as long as its span up to
a microsecond. The windows between three timestamps in order share out what lies between the
outer two; two of the timestamps may be of one microsecond. -/
theorem halfOpen_spec :
    (∀ (window : Window) (timestamp : Timestamp),
      (window.contains timestamp = true ↔
        window.startNanos ≤ timestamp.nanos ∧ timestamp.nanos < window.finishNanos) ∧
      window.contains timestamp.truncate = window.contains timestamp) ∧
    (∀ (finish : Timestamp) (span : Duration),
      ((∃ window, trailing? finish span = some window) ↔ HasRoom finish span) ∧
      ∀ window, trailing? finish span = some window → Trails finish span window) ∧
    ∀ first middle last : Timestamp, first.nanos < middle.nanos → middle.nanos < last.nanos →
      Calendar.Covers first.nanos → Calendar.Covers last.nanos →
        ∃ whole left right, between first last = .ok whole ∧ between first middle = .ok left ∧
          between middle last = .ok right ∧ SharesOut whole left right := by
  refine ⟨?membership, ?trailing, ?adjacent⟩
  case membership =>
    intro window timestamp
    exact ⟨contains_eq_true_iff, window.contains_truncate timestamp⟩
  case trailing =>
    intro finish span
    simp only [trailing?_eq_some_iff]
    refine ⟨⟨fun ⟨_, room, _⟩ => room, fun room => ⟨_, room, rfl⟩⟩, ?_⟩
    rintro window ⟨_, rfl⟩
    exact trails_endingAt finish span
  case adjacent =>
    intro first middle last firstBefore lastBehind firstCovered lastCovered
    have middleCovered : Calendar.Covers middle.nanos :=
      ⟨Int.le_trans firstCovered.1 (Int.le_of_lt firstBefore),
        Int.le_trans (Int.le_of_lt lastBehind) lastCovered.2⟩
    refine ⟨_, _, _, between_of_covers (Int.lt_trans firstBefore lastBehind) firstCovered
      lastCovered, between_of_covers firstBefore firstCovered middleCovered,
      between_of_covers lastBehind middleCovered lastCovered, ?_⟩
    exact sharesOut_of_le (Timestamp.micros_le_micros (Int.le_of_lt firstBefore))
      (Timestamp.micros_le_micros (Int.le_of_lt lastBehind))

/-- Three timestamps around the epoch, none of them a whole microsecond, and a span of one
microsecond and a half. -/
theorem halfOpen_spec_sample :
    let first : Timestamp := ⟨-2300, 3600, by decide⟩
    let middle : Timestamp := ⟨-700, -7200, by decide⟩
    let last : Timestamp := ⟨1900, 0, by decide⟩
    (∃ whole left right, between first last = .ok whole ∧ between first middle = .ok left ∧
      between middle last = .ok right ∧ SharesOut whole left right) ∧
    trailing? last ⟨1500⟩ = some ⟨-1, 1⟩ ∧ Trails last ⟨1500⟩ ⟨-1, 1⟩ := by
  intro first middle last
  have given : trailing? last ⟨1500⟩ = some ⟨-1, 1⟩ := by rfl
  have adjacent := halfOpen_spec.2.2 first middle last (by decide) (by decide) (by decide)
    (by decide)
  exact ⟨adjacent, given, (halfOpen_spec.2.1 last ⟨1500⟩).2 _ given⟩

/-- The window that is asked for is given and holds the timestamp. -/
def Encloses (asked : Except BuildError Window) (timestamp : Timestamp) : Prop :=
  ∃ window, asked = .ok window ∧ window.contains timestamp = true

/-- Half an hour after the calendar of UTC begins, the time an hour ahead of UTC is half past one,
and an hour earlier it is half past midnight. But there is no window of an hour that ends then,
since it would begin before the calendar of UTC, and what lies in a window that begins later is not
in one that begins there. -/
theorem halfOpen_beforeCalendar :
    let finish : Timestamp := ⟨-377705115000 * nanosPerSecond, 3600, by decide⟩
    let start : Timestamp := ⟨-377705118600 * nanosPerSecond, 3600, by decide⟩
    Timestamp.ofUnix? (-377705115000) 0 3600 = some finish ∧
      finish.back? (Duration.ofMinutes 60) = some start ∧
      trailing? finish (Duration.ofMinutes 60) = none ∧
      ¬∀ first middle last timestamp : Timestamp,
        first.nanos < middle.nanos → middle.nanos < last.nanos →
          (Encloses (between first last) timestamp ↔
            ¬(Encloses (between first middle) timestamp ↔
              Encloses (between middle last) timestamp)) := by
  intro finish start
  refine ⟨by decide, by decide, by decide, fun everywhere => ?_⟩
  let later : Timestamp := ⟨-377705114000 * nanosPerSecond, 3600, by decide⟩
  have law := everywhere start finish later finish (by decide) (by decide)
  have notWhole : ¬Encloses (between start later) finish := by
    rintro ⟨_, given, _⟩
    cases given
  have notLeft : ¬Encloses (between start finish) finish := by
    rintro ⟨_, given, _⟩
    cases given
  have inRight : Encloses (between finish later) finish := ⟨_, rfl, by decide⟩
  exact notWhole (law.mpr fun same => notLeft (same.mpr inRight))

end Window
end CompositeIndex
