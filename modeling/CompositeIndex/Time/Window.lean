import CompositeIndex.Error
import CompositeIndex.Json.Value
import CompositeIndex.Time.Timestamp

/-!
# Windows

A value is looked up in a half-open interval of time, `[start, finish)`, whose bounds are
microseconds in UTC. Bounds given more finely are floored, and so are the points that are
compared with them.
-/

namespace CompositeIndex

/-- The half-open interval `[start, finish)` in microseconds from the epoch. -/
@[ext]
structure Window where
  /-- The first microsecond of the window. -/
  start : Int
  /-- The first microsecond after the window. -/
  finish : Int
  deriving DecidableEq, Repr

namespace Window

inductive BuildError
  /-- The bounds are refused. -/
  | invalid (cause : Invalid)
  /-- A bound lies outside the calendar. -/
  | outsideCalendar
  deriving DecidableEq, Repr

/-- The span of a window when nothing else is asked for. -/
def defaultSpan : Duration := Duration.ofDays 1

/-- The window between two timestamps, of which the second has to be the later one. Both
bounds have to exist in UTC. -/
def between (start finish : Timestamp) : Except BuildError Window :=
  if finish.nanos ≤ start.nanos then .error (.invalid .emptyWindow)
  else
    match start.toUtc?, finish.toUtc? with
    | some _, some _ => .ok ⟨start.micros, finish.micros⟩
    | _, _ => .error .outsideCalendar

/-- The span that a trailing window uses: a second in place of one that is not positive. -/
def effectiveSpan (span : Duration) : Duration :=
  span.orElse (Duration.ofSeconds 1)

/-- The window of the given span that ends at a timestamp; `none` if a bound lies outside
the calendar. -/
def trailing? (finish : Timestamp) (span : Duration) : Option Window := do
  let last := (← finish.toUtc?).truncate
  let first ← last.back? (effectiveSpan span)
  pure ⟨first.micros, last.micros⟩

/-- The window of one day that ends at a timestamp. -/
def trailingDay? (finish : Timestamp) : Option Window :=
  trailing? finish defaultSpan

/-- The microsecond lies in the window. -/
def containsMicro (window : Window) (micro : Int) : Bool :=
  window.start ≤ micro && micro < window.finish

/-- The microsecond of the timestamp lies in the window. -/
def contains (window : Window) (timestamp : Timestamp) : Bool :=
  window.containsMicro timestamp.micros

def startText (window : Window) : String :=
  Timestamp.textOf (window.start * nanosPerMicro) 0

def finishText (window : Window) : String :=
  Timestamp.textOf (window.finish * nanosPerMicro) 0

/-- The interval as it is written in messages. -/
def text (window : Window) : String :=
  "[" ++ window.startText ++ ", " ++ window.finishText ++ ")"

def toJson (window : Window) : Json :=
  .object [("start", .text window.startText), ("end", .text window.finishText)]

end Window
end CompositeIndex
