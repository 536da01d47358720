import CompositeIndex.Time.Duration
import CompositeIndex.Time.Calendar

/-!
# Timestamps

A timestamp is an instant, in nanoseconds, together with the offset from UTC in which it is
shown. Its local time lies in the calendar. Moving a timestamp or changing its offset may
leave the calendar; such an operation answers `none`.

Stores keep microseconds: `Timestamp.micros` is the floor of the instant, before and after
the epoch alike.
-/

namespace CompositeIndex

/-- An instant shown in an offset from UTC. -/
@[ext]
structure Timestamp where
  /-- Nanoseconds from 1970-01-01T00:00:00Z. -/
  nanos : Int
  /-- Seconds that local time is ahead of UTC. -/
  offset : Int
  /-- The local time lies in the calendar. -/
  covered : Calendar.Covers (nanos + offset * nanosPerSecond)
  deriving DecidableEq, Repr

namespace Timestamp

/-- The timestamp of an instant in an offset, if its local time lies in the calendar. -/
def ofNanos? (nanos offset : Int) : Option Timestamp :=
  if covered : Calendar.Covers (nanos + offset * nanosPerSecond) then
    some ⟨nanos, offset, covered⟩
  else
    none

/-- The timestamp of a moment of Unix time, shown in an offset. The moment is one of UTC
before it is shown elsewhere, so it has to exist in both. -/
def ofUnix? (seconds nanos offset : Int) : Option Timestamp := do
  let utc ← ofNanos? (seconds * nanosPerSecond + nanos) 0
  ofNanos? utc.nanos offset

/-- The timestamp that many nanoseconds later in the same offset. -/
def shift? (timestamp : Timestamp) (duration : Duration) : Option Timestamp :=
  ofNanos? (timestamp.nanos + duration.nanos) timestamp.offset

/-- The timestamp that many nanoseconds earlier in the same offset. -/
def back? (timestamp : Timestamp) (duration : Duration) : Option Timestamp :=
  ofNanos? (timestamp.nanos - duration.nanos) timestamp.offset

def toUtc? (timestamp : Timestamp) : Option Timestamp :=
  ofNanos? timestamp.nanos 0

/-- The microsecond that holds the instant, counted from the epoch. -/
def micros (timestamp : Timestamp) : Int :=
  timestamp.nanos / nanosPerMicro

/-- The first instant of the microsecond that holds this one. -/
def floorNanos (timestamp : Timestamp) : Int :=
  timestamp.micros * nanosPerMicro

/-- The calendar starts with a whole microsecond in every offset, so dropping the part
below a microsecond stays in it. -/
theorem floor_covered (timestamp : Timestamp) :
    Calendar.Covers (timestamp.floorNanos + timestamp.offset * nanosPerSecond) := by
  have covered := timestamp.covered
  simp only [floorNanos, micros, Calendar.Covers, Calendar.first, Calendar.last,
    Calendar.firstSecond, Calendar.lastSecond, nanosPerMicro, nanosPerSecond] at *
  omega

/-- The timestamp without the part below a microsecond. -/
def truncate (timestamp : Timestamp) : Timestamp :=
  ⟨timestamp.floorNanos, timestamp.offset, timestamp.floor_covered⟩

/-- The fraction of a second as it is written: nothing for zero, otherwise a point and the
nanoseconds without trailing zeros. -/
def fractionText (nanos : Nat) : String :=
  if nanos = 0 then ""
  else
    let digits := (Text.paddedDigits 9 nanos).toList
    "." ++ String.ofList ((digits.reverse.dropWhile (· == '0')).reverse)

/-- The offset as it is written: `Z` for none, otherwise signed hours and minutes. -/
def offsetText (offset : Int) : String :=
  if offset = 0 then "Z"
  else
    let minutes := offset.natAbs / 60
    (if offset < 0 then "-" else "+") ++ Text.paddedDigits 2 (minutes / 60) ++ ":" ++
      Text.paddedDigits 2 (minutes % 60)

/-- An offset can be written if it has no seconds and less than a day of hours. -/
def isWritableOffset (offset : Int) : Bool :=
  offset.natAbs / 3600 ≤ 23 && offset.natAbs % 60 == 0

/-- The date and time of an instant in an offset, such as `2026-03-02T12:00:00.5+01:00`.
Years outside 0 to 9999 and offsets of a day or with seconds have no such text. -/
def textOf (nanos offset : Int) : String :=
  let localNanos := nanos + offset * nanosPerSecond
  let seconds := localNanos / nanosPerSecond
  let date := CivilDate.ofDays (seconds / secondsPerDay)
  let second := (seconds % secondsPerDay).toNat
  if 0 ≤ date.year && date.year ≤ 9999 && isWritableOffset offset then
    Text.paddedDigits 4 date.year.toNat ++ "-" ++ Text.paddedDigits 2 date.month ++ "-" ++
      Text.paddedDigits 2 date.day ++ "T" ++ Text.paddedDigits 2 (second / 3600) ++ ":" ++
      Text.paddedDigits 2 (second / 60 % 60) ++ ":" ++ Text.paddedDigits 2 (second % 60) ++
      fractionText (localNanos % nanosPerSecond).toNat ++ offsetText offset
  else
    "<unformattable>"

def text (timestamp : Timestamp) : String :=
  textOf timestamp.nanos timestamp.offset

@[simp] theorem ofNanos?_eq_some_iff
    {nanos offset : Int}
    {timestamp : Timestamp} :
    ofNanos? nanos offset = some timestamp ↔
      timestamp.nanos = nanos ∧ timestamp.offset = offset := by
  unfold ofNanos?
  split
  · rename_i covered
    constructor
    · intro equal
      cases equal
      exact ⟨rfl, rfl⟩
    · rintro ⟨rfl, rfl⟩
      rfl
  · rename_i uncovered
    constructor
    · intro equal
      cases equal
    · rintro ⟨rfl, rfl⟩
      exact absurd timestamp.covered uncovered

example : textOf 1772452800000000000 0 = "2026-03-02T12:00:00Z" := by decide +kernel
example : textOf 1772452800000500000 7200 = "2026-03-02T14:00:00.0005+02:00" := by
  decide +kernel

end Timestamp
end CompositeIndex
