import CompositeIndex.Proofs.Seed.Effect
import CompositeIndex.Proofs.Time.Intervals
import Mathlib.Algebra.Group.Int.Defs
import Mathlib.Algebra.Group.Nat.Defs

/-!
# The timeline of a seed

A timeline counts back from its end in equal steps. Its first timestamp is the earliest, so that
the calendar has room for all of them as soon as it has room for that one, and too many steps are
the only other reason to reject a timeline.

Timestamps are worked out in two operations that may each leave their range: a multiple of the
step has to be held by a duration, which counts whole seconds in a word of 64 bits, and the
difference by the calendar. `checkedBack?` follows the two. The calendar is much the narrower
range, so that a multiple which no duration holds leaves the calendar as well.
-/

namespace CompositeIndex

namespace Duration

/-- The whole seconds of the span fit a signed word of 64 bits. -/
def IsHeld (duration : Duration) : Prop :=
  -(2 ^ 63) ≤ duration.wholeSeconds ∧ duration.wholeSeconds < 2 ^ 63

instance (duration : Duration) : Decidable duration.IsHeld :=
  inferInstanceAs (Decidable (_ ∧ _))

/-- The span taken `count` times, if a duration holds it. -/
def times? (count : Nat) (duration : Duration) : Option Duration :=
  if (duration.times count).IsHeld then some (duration.times count) else none

end Duration

namespace Timestamp

variable {timestamp : Timestamp} {duration : Duration}

/-- There is an earlier timestamp if the calendar covers its local time. -/
theorem isSome_back?_iff :
    (timestamp.back? duration).isSome = true ↔
      Calendar.Covers
        (timestamp.nanos - duration.nanos + timestamp.offset * nanosPerSecond) :=
  isSome_ofNanos?_iff

/-- A span that leads from one timestamp to another is held by a duration. -/
theorem isHeld_of_back? (found : (timestamp.back? duration).isSome = true) :
    duration.IsHeld := by
  have covered := timestamp.covered
  have reached := isSome_back?_iff.mp found
  simp only [Calendar.Covers, Calendar.first, Calendar.last, Calendar.firstSecond,
    Calendar.lastSecond, nanosPerSecond] at covered reached
  have seconds : duration.wholeSeconds.natAbs = duration.nanos.natAbs / 1000000000 :=
    Int.natAbs_tdiv ..
  -- the calendar has less than `10 ^ 12` seconds
  have narrow : duration.wholeSeconds.natAbs < 10 ^ 12 := by omega
  exact ⟨by omega, by omega⟩

end Timestamp

namespace Seed

/-! ## Counting back -/

/-- The numbers from `count` down to one. -/
def countdown (count : Nat) : List Nat :=
  (List.range' 1 count).reverse

/-- The timestamp that lies `count` steps before the end, if a duration holds the way back and
the calendar the timestamp. -/
def checkedBack? (finish : Timestamp) (step : Duration) (count : Nat) : Option Timestamp :=
  (step.times? count).bind finish.back?

theorem countdown_succ (count : Nat) : countdown (count + 1) = (count + 1) :: countdown count := by
  rw [countdown, List.range'_1_concat, List.reverse_append, Nat.add_comm 1 count]
  rfl

theorem checkedBack?_eq (finish : Timestamp) (step : Duration) (count : Nat) :
    checkedBack? finish step count = finish.back? (step.times count) := by
  unfold checkedBack? Duration.times?
  split
  · rfl
  · next notHeld =>
    cases found : finish.back? (step.times count) with
    | none => rfl
    | some timestamp => exact absurd (Timestamp.isHeld_of_back? (by rw [found]; rfl)) notHeld

/-- Counting back may as well check that each multiple of the step is held. -/
theorem timestampsBack?_eq_mapM (finish : Timestamp) (step : Duration) (count : Nat) :
    timestampsBack? finish step count = (countdown count).mapM (checkedBack? finish step) := by
  induction count with
  | zero => rfl
  | succ count inductionHypothesis =>
      rw [countdown_succ, List.mapM_cons, checkedBack?_eq, ← inductionHypothesis]
      rfl

/-! ## The timestamps -/

/-- The timestamps from `count` steps before the end up to one step before it. -/
structure CountsBack
    (finish : Timestamp)
    (stepNanos : Int)
    (count : Nat)
    (timestamps : List Timestamp) : Prop where
  length : timestamps.length = count
  /-- Positions are counted from zero. -/
  nanos : ∀ (position : Nat) (timestamp : Timestamp), timestamps[position]? = some timestamp →
    timestamp.nanos = finish.nanos - ((count : Int) - position) * stepNanos
  offset : ∀ timestamp ∈ timestamps, timestamp.offset = finish.offset
  ascending : timestamps.Pairwise fun earlier later => earlier.nanos < later.nanos
  before : ∀ timestamp ∈ timestamps, timestamp.nanos < finish.nanos

section

variable {finish : Timestamp} {step : Duration} {count : Nat}

theorem countsBack_nil (finish : Timestamp) (stepNanos : Int) :
    CountsBack finish stepNanos 0 [] := by
  constructor <;> simp

/-- No timestamp lies more steps before the end than the first one. -/
theorem CountsBack.le_nanos
    {timestamps : List Timestamp}
    (countsBack : CountsBack finish step.nanos count timestamps)
    (positive : 0 < step.nanos)
    {timestamp : Timestamp}
    (member : timestamp ∈ timestamps) :
    finish.nanos - count * step.nanos ≤ timestamp.nanos := by
  obtain ⟨position, found⟩ := List.mem_iff_getElem?.mp member
  have forward : 0 ≤ (position : Int) * step.nanos :=
    Int.mul_nonneg (Int.natCast_nonneg _) (Int.le_of_lt positive)
  rw [countsBack.nanos position timestamp found, Int.sub_mul]
  omega

/-- One more timestamp is put in front of the others. -/
theorem CountsBack.cons
    {later : List Timestamp}
    (countsBack : CountsBack finish step.nanos count later)
    (positive : 0 < step.nanos)
    {first : Timestamp}
    (isFirst : finish.back? (step.times (count + 1)) = some first) :
    CountsBack finish step.nanos (count + 1) (first :: later) := by
  obtain ⟨firstNanos, firstOffset⟩ := Timestamp.ofNanos?_eq_some_iff.mp isFirst
  have firstNanos : first.nanos = finish.nanos - (count * step.nanos + step.nanos) := by
    rw [firstNanos, Duration.times, Int.natCast_add, Int.add_mul, Int.natCast_one, Int.one_mul]
  have back : 0 ≤ (count : Int) * step.nanos :=
    Int.mul_nonneg (Int.natCast_nonneg _) (Int.le_of_lt positive)
  refine ⟨congrArg (· + 1) countsBack.length, ?nanos,
    List.forall_mem_cons.mpr ⟨firstOffset, countsBack.offset⟩,
    List.pairwise_cons.mpr ⟨?ascending, countsBack.ascending⟩,
    List.forall_mem_cons.mpr ⟨?before, countsBack.before⟩⟩
  case nanos =>
    intro position timestamp found
    cases position with
    | zero =>
        cases found
        rw [firstNanos, Int.natCast_add, Int.natCast_zero, Int.sub_zero, Int.add_mul,
          Int.natCast_one, Int.one_mul]
    | succ position =>
        rw [countsBack.nanos position timestamp found]
        congr 2
        omega
  case ascending =>
    intro timestamp member
    have notEarlier := countsBack.le_nanos positive member
    omega
  case before => omega

/-- A timestamp some steps before the end exists if it is not too early. -/
theorem isSome_back?_times_iff (notNegative : 0 ≤ step.nanos) :
    (finish.back? (step.times count)).isSome = true ↔
      Calendar.first ≤
        finish.nanos - count * step.nanos + finish.offset * nanosPerSecond := by
  have covered := finish.covered.2
  have back : 0 ≤ (count : Int) * step.nanos :=
    Int.mul_nonneg (Int.natCast_nonneg _) notNegative
  rw [Timestamp.isSome_back?_iff]
  refine and_iff_left ?_
  change finish.nanos - count * step.nanos + finish.offset * nanosPerSecond ≤ Calendar.last
  omega

/-- There are timestamps to count back through if the first of them exists. -/
theorem exists_timestampsBack?
    (positive : 0 < step.nanos)
    (reached : Calendar.first ≤
      finish.nanos - count * step.nanos + finish.offset * nanosPerSecond) :
    ∃ timestamps, timestampsBack? finish step count = some timestamps ∧
      CountsBack finish step.nanos count timestamps := by
  induction count with
  | zero => exact ⟨[], rfl, countsBack_nil finish step.nanos⟩
  | succ count inductionHypothesis =>
      have shorter : Calendar.first ≤
          finish.nanos - count * step.nanos + finish.offset * nanosPerSecond := by
        rw [Int.natCast_add, Int.add_mul, Int.natCast_one, Int.one_mul] at reached
        omega
      obtain ⟨later, found, countsBack⟩ := inductionHypothesis shorter
      obtain ⟨first, isFirst⟩ := Option.isSome_iff_exists.mp
        ((isSome_back?_times_iff (Int.le_of_lt positive)).mpr reached)
      refine ⟨first :: later, ?_, countsBack.cons positive isFirst⟩
      rw [timestampsBack?, isFirst, found]
      rfl

/-- Counting back fails if the first timestamp does not exist. -/
theorem timestampsBack?_eq_none
    (positive : 0 < step.nanos)
    (notZero : 1 ≤ count)
    (tooEarly : finish.nanos - count * step.nanos + finish.offset * nanosPerSecond <
      Calendar.first) :
    timestampsBack? finish step count = none := by
  obtain ⟨others, rfl⟩ := Nat.exists_eq_add_of_le' notZero
  have missing : finish.back? (step.times (others + 1)) = none := by
    rw [← Option.not_isSome_iff_eq_none, isSome_back?_times_iff (Int.le_of_lt positive)]
    exact Int.not_le.mpr tooEarly
  rw [timestampsBack?, missing]
  rfl

end

/-! ## The timeline -/

/-- The nanoseconds between two points: those of a minute if the step is not positive. -/
def Options.stepNanos (options : Options) : Int :=
  if 0 < options.step.nanos then options.step.nanos else 60 * nanosPerSecond

/-- More points are asked for than a signed word of 32 bits counts, or the first one would lie
before the calendar begins where the end is shown. -/
def Options.ReachTooFar (options : Options) : Prop :=
  2 ^ 31 - 1 < options.points ∨
    1 ≤ options.points ∧
      options.finish.nanos - options.points * options.stepNanos +
        options.finish.offset * nanosPerSecond < Calendar.first

instance (options : Options) : Decidable options.ReachTooFar :=
  inferInstanceAs (Decidable (_ ∨ _ ∧ _))

/-- The timeline by operations that answer whether they stay in their ranges. -/
def checkedTimeline? (options : Options) : Option (List Timestamp) :=
  if options.points < 2 ^ 31 then
    (countdown options.points).mapM (checkedBack? options.finish options.effectiveStep)
  else none

theorem nanos_effectiveStep (options : Options) :
    options.effectiveStep.nanos = options.stepNanos := by
  rw [Options.effectiveStep, Duration.orElse, Duration.isPositive, Options.stepNanos]
  by_cases positive : 0 < options.step.nanos
  · rw [if_pos (decide_eq_true positive), if_pos positive]
  · rw [if_neg (mt of_decide_eq_true positive), if_neg positive]
    rfl

theorem stepNanos_pos (options : Options) : 0 < options.stepNanos := by
  unfold Options.stepNanos
  split
  · assumption
  · decide

section

variable {options : Options}

/-- A timeline within reach is made. -/
theorem timeline_eq_ok
    {timestamps : List Timestamp}
    (fits : options.points < 2 ^ 31)
    (found : timestampsBack? options.finish options.effectiveStep options.points =
      some timestamps) :
    timeline options = .ok timestamps := by
  have word : pointLimit = 2 ^ 31 - 1 := rfl
  rw [timeline, if_neg (by omega), found]

/-- A timeline that cannot be made is rejected. -/
theorem timeline_eq_rejected
    (unmade : options.points < 2 ^ 31 →
      timestampsBack? options.finish options.effectiveStep options.points = none) :
    ∃ reason, timeline options = .error (.rejected reason) := by
  have word : pointLimit = 2 ^ 31 - 1 := rfl
  by_cases fits : options.points < 2 ^ 31
  · exact ⟨_, by rw [timeline, if_neg (by omega), unmade fits]⟩
  · exact ⟨_, by rw [timeline, if_pos (by omega)]⟩

/-- If the first timestamp exists, then so do those behind it. -/
theorem reached_of_not_reachTooFar
    (inReach : ¬options.ReachTooFar)
    {count : Nat}
    (notMore : count ≤ options.points) :
    Calendar.first ≤
      options.finish.nanos - count * options.effectiveStep.nanos +
        options.finish.offset * nanosPerSecond := by
  have positive := stepNanos_pos options
  rw [nanos_effectiveStep]
  rcases Nat.eq_zero_or_pos options.points with noPoints | anyPoints
  · obtain rfl : count = 0 := by omega
    rw [Int.natCast_zero, Int.zero_mul, Int.sub_zero]
    exact options.finish.covered.1
  · have notEarly := Int.not_lt.mp (not_and.mp (not_or.mp inReach).2 anyPoints)
    have shorter : count * options.stepNanos ≤ options.points * options.stepNanos :=
      Int.mul_le_mul_of_nonneg_right (Int.ofNat_le.mpr notMore) (Int.le_of_lt positive)
    omega

theorem exists_timeline (inReach : ¬options.ReachTooFar) :
    ∃ timestamps, timeline options = .ok timestamps ∧
      CountsBack options.finish options.stepNanos options.points timestamps := by
  have fits := (not_or.mp inReach).1
  have reached := reached_of_not_reachTooFar inReach (Nat.le_refl _)
  have positive := stepNanos_pos options
  rw [← nanos_effectiveStep] at positive ⊢
  obtain ⟨timestamps, found, countsBack⟩ := exists_timestampsBack? positive reached
  exact ⟨timestamps, timeline_eq_ok (by omega) found, countsBack⟩

theorem timeline_of_reachTooFar (tooFar : options.ReachTooFar) :
    ∃ reason, timeline options = .error (.rejected reason) := by
  refine timeline_eq_rejected fun fits => ?_
  obtain ⟨notZero, tooEarly⟩ := tooFar.resolve_left (by omega)
  have positive := stepNanos_pos options
  rw [← nanos_effectiveStep] at positive tooEarly
  exact timestampsBack?_eq_none positive notZero tooEarly

/-- Where there is a timeline, durations hold all its steps. -/
theorem isHeld_of_not_reachTooFar
    (inReach : ¬options.ReachTooFar)
    {count : Nat}
    (notMore : count ≤ options.points) :
    (options.effectiveStep.times count).IsHeld := by
  have positive := stepNanos_pos options
  rw [← nanos_effectiveStep] at positive
  exact Timestamp.isHeld_of_back? ((isSome_back?_times_iff (Int.le_of_lt positive)).mpr
    (reached_of_not_reachTooFar inReach notMore))

/-- Operations that check their ranges make the same timeline. -/
theorem toOption_timeline (options : Options) :
    (timeline options).toOption = checkedTimeline? options := by
  unfold checkedTimeline?
  rw [← timestampsBack?_eq_mapM]
  by_cases fits : options.points < 2 ^ 31
  · rw [if_pos fits]
    cases found : timestampsBack? options.finish options.effectiveStep options.points with
    | some timestamps => rw [timeline_eq_ok fits found, Except.toOption]
    | none =>
        obtain ⟨reason, rejected⟩ := timeline_eq_rejected fun _ => found
        rw [rejected, Except.toOption]
  · obtain ⟨reason, rejected⟩ := timeline_eq_rejected fun fits' => absurd fits' fits
    rw [if_neg fits, rejected, Except.toOption]

end

/-- A timeline is rejected exactly if it would reach too far. Otherwise it counts back from its
end, all steps being held by durations. Operations that check their ranges make the same one. -/
theorem timeline_rejected_iff (options : Options) :
    ((∃ reason, timeline options = .error (.rejected reason)) ↔ options.ReachTooFar) ∧
    (¬options.ReachTooFar →
      (∃ timestamps, timeline options = .ok timestamps ∧
        CountsBack options.finish options.stepNanos options.points timestamps) ∧
      ∀ count ≤ options.points, (options.effectiveStep.times count).IsHeld) ∧
    (timeline options).toOption = checkedTimeline? options := by
  refine ⟨⟨?tooFar, timeline_of_reachTooFar⟩, fun inReach => ⟨exists_timeline inReach, ?held⟩,
    toOption_timeline options⟩
  case tooFar =>
    rintro ⟨reason, rejected⟩
    by_contra inReach
    obtain ⟨timestamps, made, _⟩ := exists_timeline inReach
    rw [made] at rejected
    cases rejected
  case held => exact fun count notMore => isHeld_of_not_reachTooFar inReach notMore

/-- Three minutes into the calendar there is room for three points a minute apart, but for no
fourth one. -/
theorem timeline_rejected_iff_sample :
    let finish : Timestamp := ⟨Calendar.first + (180 - 18000) * nanosPerSecond, 18000, by decide⟩
    let options : Options := { points := 3, step := ⟨-1500⟩, finish, seed := 7 }
    (∃ timestamps, timeline options = .ok timestamps ∧
      CountsBack finish (60 * nanosPerSecond) 3 timestamps) ∧
    ∃ reason, timeline { options with points := 4 } = .error (.rejected reason) := by
  intro finish options
  exact ⟨((timeline_rejected_iff options).2.1 (by decide)).1,
    (timeline_rejected_iff { options with points := 4 }).1.mpr (by decide)⟩

end Seed
end CompositeIndex
