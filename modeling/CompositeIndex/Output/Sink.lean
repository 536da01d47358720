import CompositeIndex.Output.Record

/-!
# Where output goes

A sink takes texts one after the other. It may have room for a limited number of bytes; a
text that does not fit is not taken at all and closes the sink. A closed sink still takes
the empty text, since nothing is written then.
-/

namespace CompositeIndex
namespace Output

/-- A sink with what it has taken. -/
structure Sink where
  /-- The number of bytes that there is still room for; `none` for no limit. -/
  room : Option Nat := none
  /-- A text has been refused. -/
  isClosed : Bool := false
  /-- The texts taken, the latest one in front. -/
  taken : List String := []
  deriving DecidableEq, Repr

namespace Sink

/-- A sink that takes everything. -/
def unlimited : Sink := {}

def limited (room : Nat) : Sink := { room := some room }

def text (sink : Sink) : String :=
  String.join sink.taken.reverse

/-- There is room for so many bytes. -/
def hasRoom (sink : Sink) (size : Nat) : Bool :=
  sink.room.all fun room => size ≤ room

/-- Writes a text; `none` if the sink does not take it. -/
def write? (sink : Sink) (text : String) : Option Sink :=
  if text.isEmpty then some sink
  else if sink.isClosed || !sink.hasRoom text.utf8ByteSize then none
  else
    some
      { sink with
        room := sink.room.map fun room => room - text.utf8ByteSize
        taken := text :: sink.taken }

def close (sink : Sink) : Sink :=
  { sink with isClosed := true }

/-- What is said about a text that is not taken. -/
def refusal : String := "stdout closed"

/-- Writes events one after the other; answers for each the text written, or `none` if the
sink does not take it. -/
def writeEvents (format : Format) : List Event → Sink → List (Option String)
  | [], _ => []
  | event :: events, sink =>
      let text := format.render event
      match sink.write? text with
      | some sink => some text :: writeEvents format events sink
      | none => none :: writeEvents format events sink.close

end Sink
end Output
end CompositeIndex
