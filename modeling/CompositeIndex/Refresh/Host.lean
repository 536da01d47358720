import CompositeIndex.Refresh.Activity

/-!
# The outside of the refresh loop

The loop needs a clock, a store, somebody to report to and a flag that interrupts it. A
`Host` gives all of these over a world of any type, so that one loop serves a real run and
a rehearsed one. The loop looks at the flag at certain moments only.
-/

namespace CompositeIndex
namespace Refresh

/-- A moment at which the loop looks at the flag. -/
inductive Moment
  | passStart
  | indexStart
  /-- The computation of an index is about to ask its first question. -/
  | computing
  | awaiting
  | beforeSleep
  | asleep
  deriving DecidableEq, Repr

/-- Why a run breaks off. -/
inductive Halt
  /-- A report cannot be handed over. -/
  | output (problem : String)
  /-- A time lies outside the calendar. -/
  | leftCalendar
  /-- The passes can no longer be counted. -/
  | passesExhausted
  deriving DecidableEq, Repr

/-- How the outside takes a report. -/
structure Reaction (σ : Type) where
  result : Except Halt Unit
  world : σ
  log : List LogLine := []

/-- The outside of the loop over a world. -/
structure Host (σ : Type) where
  now : σ → Timestamp
  reader : σ → Reader
  /-- The flag is found to be raised. -/
  isRaised : Moment → σ → Bool
  ask : Query → σ → σ
  report : Report → σ → Reaction σ
  fallAsleep : Duration → σ → σ
  /-- The loop wakes up after a sleep; `none` if the clock leaves the calendar. -/
  wake : Duration → σ → Option σ

/-- The same outside without anybody who could raise the flag. -/
def Host.undisturbed (host : Host σ) : Host σ :=
  { host with isRaised := fun _ _ => false }

end Refresh
end CompositeIndex
