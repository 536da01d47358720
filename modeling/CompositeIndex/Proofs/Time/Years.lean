import CompositeIndex.Proofs.Time.Intervals

/-!
# Years that are written with four digits

An era of four hundred years begins with a March and is counted off in centuries of equal length,
with one more day at its end. From this follow the instants at which the years 0 and 10000 begin
in UTC. A timestamp of the years between them exists in UTC, and a window that ends with it has
room unless it reaches back behind the calendar.
-/

namespace CompositeIndex

namespace CivilDate

/-- The years of an era, counted from March, before a day of the era. -/
def yearOfEra (dayOfEra : Nat) : Nat :=
  (dayOfEra - dayOfEra / 1460 + dayOfEra / 36524 - dayOfEra / 146096) / 365

/-- The days before a day of an era in its year, which begins with March. -/
def dayOfYear (dayOfEra : Nat) : Nat :=
  let year := yearOfEra dayOfEra
  dayOfEra - (365 * year + year / 4 - year / 100)

section

variable {dayOfEra : Nat}

theorem yearOfEra_lt (inEra : dayOfEra < 146097) : yearOfEra dayOfEra < 400 := by
  rw [yearOfEra]
  omega

theorem dayOfYear_lt (inEra : dayOfEra < 146097) : dayOfYear dayOfEra < 366 := by
  rcases Nat.lt_or_eq_of_le (Nat.le_of_lt_succ inEra) with isEarlier | rfl
  · have isYear : yearOfEra dayOfEra =
        (dayOfEra - dayOfEra / 1460 + dayOfEra / 36524) / 365 := by
      rw [yearOfEra]
      omega
    -- but for its last day, an era is four centuries of equal length
    have century : yearOfEra dayOfEra / 100 = dayOfEra / 36524 := by
      rw [isYear]
      omega
    simp only [dayOfYear]
    omega
  · decide

/-- The last January and February of an era belong to its last year. -/
theorem isLastJanuary_iff (inEra : dayOfEra < 146097) :
    yearOfEra dayOfEra = 399 ∧ 306 ≤ dayOfYear dayOfEra ↔ 146037 ≤ dayOfEra := by
  rw [dayOfYear, yearOfEra]
  omega

end

/-- The year of a day; January and February come after the March that the year of the era began
with, but count to the next year. -/
theorem year_ofDays (days : Int) :
    let shifted := days + epochShift
    let dayOfEra := (shifted % daysPerEra).toNat
    (ofDays days).year = yearOfEra dayOfEra + 400 * (shifted / daysPerEra) +
      if 306 ≤ dayOfYear dayOfEra then 1 else 0 := by
  intro shifted dayOfEra
  have inEra : dayOfEra < 146097 := by
    simp only [dayOfEra, daysPerEra]
    omega
  have small := dayOfYear_lt inEra
  let month := (5 * dayOfYear dayOfEra + 2) / 153
  have isYear : (ofDays days).year = yearOfEra dayOfEra + 400 * (shifted / daysPerEra) +
      if (if month < 10 then month + 3 else month - 9) ≤ 2 then 1 else 0 := rfl
  rw [isYear]
  congr 2
  apply propext
  split <;> omega

/-- The first days of the years that four hundred divides. -/
theorem le_year_iff (days era : Int) :
    400 * era ≤ (ofDays days).year ↔ daysPerEra * era - 719528 ≤ days := by
  rw [year_ofDays, epochShift]
  have inEra : ((days + 719468) % daysPerEra).toNat < 146097 := by
    rw [daysPerEra]
    omega
  have isDay : (((days + 719468) % daysPerEra).toNat : Int) =
      days + 719468 - daysPerEra * ((days + 719468) / daysPerEra) := by
    simp only [daysPerEra]
    omega
  have year := yearOfEra_lt inEra
  have january := isLastJanuary_iff inEra
  generalize ((days + 719468) % daysPerEra).toNat = dayOfEra at *
  rw [daysPerEra] at *
  split <;> omega

end CivilDate

namespace Timestamp

/-- The year in which an instant lies in UTC. -/
def utcYear (timestamp : Timestamp) : Int :=
  (CivilDate.ofDays (timestamp.nanos / nanosPerSecond / secondsPerDay)).year

/-- The year in UTC is one that dates are written with. -/
def HasWrittenYear (timestamp : Timestamp) : Prop :=
  0 ≤ timestamp.utcYear ∧ timestamp.utcYear ≤ 9999

instance (timestamp : Timestamp) : Decidable timestamp.HasWrittenYear :=
  inferInstanceAs (Decidable (_ ∧ _))

/-- The beginning of the year 0, in nanoseconds from the epoch. -/
def yearZero : Int := -62167219200000000000

theorem hasWrittenYear_iff (timestamp : Timestamp) :
    timestamp.HasWrittenYear ↔ yearZero ≤ timestamp.nanos ∧ timestamp.nanos ≤ Calendar.last := by
  have fromZero := CivilDate.le_year_iff (timestamp.nanos / nanosPerSecond / secondsPerDay) 0
  have fromLast := CivilDate.le_year_iff (timestamp.nanos / nanosPerSecond / secondsPerDay) 25
  rw [HasWrittenYear, utcYear]
  generalize (CivilDate.ofDays _).year = year at *
  simp only [CivilDate.daysPerEra, nanosPerSecond, secondsPerDay, yearZero, Calendar.last,
    Calendar.lastSecond] at *
  omega

end Timestamp

namespace Window

variable {finish : Timestamp} {span : Duration}

/-- How far a window can reach back from its end. -/
def reach (finish : Timestamp) : Int :=
  finish.floorNanos - Calendar.first

/-- From every year that is written windows can reach back for 9999 years. -/
theorem le_reach (written : finish.HasWrittenYear) :
    (Duration.ofDays 3652059).nanos ≤ reach finish := by
  obtain ⟨fromZero, _⟩ := finish.hasWrittenYear_iff.mp written
  simp only [Duration.ofDays, Duration.ofSeconds, secondsPerDay, nanosPerSecond, reach,
    Timestamp.floorNanos, Timestamp.micros, nanosPerMicro, Timestamp.yearZero, Calendar.first,
    Calendar.firstSecond] at *
  omega

theorem hasRoom_iff_le_reach
    (written : finish.HasWrittenYear)
    (positive : 0 < span.nanos) :
    HasRoom finish span ↔ span.nanos ≤ reach finish := by
  obtain ⟨fromZero, toLast⟩ := finish.hasWrittenYear_iff.mp written
  rw [HasRoom, nanos_effectiveSpan, if_pos positive]
  simp only [Calendar.Covers, reach, Timestamp.floorNanos, Timestamp.micros, nanosPerMicro,
    Timestamp.yearZero, Calendar.first, Calendar.firstSecond, Calendar.last,
    Calendar.lastSecond] at *
  omega

end Window
end CompositeIndex
