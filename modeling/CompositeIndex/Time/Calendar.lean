/-!
# The calendar

Days are counted from 1970-01-01 in the proleptic Gregorian calendar. The calendar covers
the years -9999 to 9999.
-/

namespace CompositeIndex

/-- A day of the proleptic Gregorian calendar. -/
structure CivilDate where
  year : Int
  month : Nat
  day : Nat
  deriving DecidableEq, Repr

namespace CivilDate

/-- Days in four hundred years. -/
def daysPerEra : Int := 146097

/-- Days from 0000-03-01 to 1970-01-01. -/
def epochShift : Int := 719468

/-- The date of a day counted from 1970-01-01. Years are counted from March, so that the
leap day is the last of its year; an era is a cycle of four hundred years. -/
def ofDays (days : Int) : CivilDate :=
  let shifted := days + epochShift
  let era := shifted / daysPerEra
  let dayOfEra := (shifted % daysPerEra).toNat
  let yearOfEra :=
    (dayOfEra - dayOfEra / 1460 + dayOfEra / 36524 - dayOfEra / 146096) / 365
  let dayOfYear := dayOfEra - (365 * yearOfEra + yearOfEra / 4 - yearOfEra / 100)
  let monthFromMarch := (5 * dayOfYear + 2) / 153
  let day := dayOfYear - (153 * monthFromMarch + 2) / 5 + 1
  let month := if monthFromMarch < 10 then monthFromMarch + 3 else monthFromMarch - 9
  let year := yearOfEra + 400 * era + if month ≤ 2 then 1 else 0
  ⟨year, month, day⟩

end CivilDate

namespace Calendar

/-- The first instant of the year -9999, in seconds from 1970-01-01. -/
def firstSecond : Int := -377705116800

/-- The last second of the year 9999, in seconds from 1970-01-01. -/
def lastSecond : Int := 253402300799

/-- The first nanosecond of the calendar. -/
def first : Int := firstSecond * 1000000000

/-- The last nanosecond of the calendar. -/
def last : Int := lastSecond * 1000000000 + 999999999

/-- The local time, in nanoseconds from 1970-01-01T00:00:00, lies in the calendar. -/
def Covers (localNanos : Int) : Prop :=
  first ≤ localNanos ∧ localNanos ≤ last

instance (localNanos : Int) : Decidable (Covers localNanos) :=
  inferInstanceAs (Decidable (_ ∧ _))

end Calendar

example : CivilDate.ofDays 0 = ⟨1970, 1, 1⟩ := by decide
example : CivilDate.ofDays (Calendar.firstSecond / 86400) = ⟨-9999, 1, 1⟩ := by decide
example : CivilDate.ofDays (Calendar.lastSecond / 86400) = ⟨9999, 12, 31⟩ := by decide
example : CivilDate.ofDays 11016 = ⟨2000, 2, 29⟩ := by decide

end CompositeIndex
