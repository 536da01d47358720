import CompositeIndex.Text.Layout

/-!
# Faults of a JSON text

Reading stops at the first fault from the left. A fault says what is wrong and how many
bytes of the text are still to be read at that point, from which the line and the column
follow. Columns count bytes.
-/

namespace CompositeIndex
namespace Json

/-- What is wrong with a JSON text. -/
inductive Problem
  | endsInValue
  | endsInArray
  | endsInObject
  | endsInText
  /-- A name without a colon behind it. -/
  | colonMissing
  /-- Two items without a comma between them. -/
  | itemEndMissing
  /-- Two members without a comma between them. -/
  | memberEndMissing
  /-- A bare word that is no value. -/
  | unknownWord
  /-- Something that starts no value. -/
  | valueMissing
  | badEscape
  /-- A number that breaks the grammar. -/
  | badNumber
  /-- A number beyond the doubles. -/
  | numberOutOfRange
  | controlCharacter
  /-- A member whose name is not quoted. -/
  | nameNotQuoted
  /-- Half a surrogate pair. -/
  | loneSurrogate
  /-- A leading surrogate with something else behind it. -/
  | brokenSurrogatePair
  | trailingComma
  | trailingCharacters
  /-- A value that does not fit what is asked for. -/
  | unfit (reason : String)
  deriving DecidableEq, Repr

/-- The kinds of problems. -/
inductive Category
  /-- The text ends too early. -/
  | incomplete
  /-- The text is not JSON. -/
  | malformed
  /-- The value is not what is asked for. -/
  | unfit
  deriving DecidableEq, Repr

namespace Problem

def category : Problem → Category
  | .endsInValue => .incomplete
  | .endsInArray => .incomplete
  | .endsInObject => .incomplete
  | .endsInText => .incomplete
  | .unfit _ => .unfit
  | _ => .malformed

def message : Problem → String
  | .endsInValue => "EOF while parsing a value"
  | .endsInArray => "EOF while parsing a list"
  | .endsInObject => "EOF while parsing an object"
  | .endsInText => "EOF while parsing a string"
  | .colonMissing => "expected `:`"
  | .itemEndMissing => "expected `,` or `]`"
  | .memberEndMissing => "expected `,` or `\x7d`"
  | .unknownWord => "expected ident"
  | .valueMissing => "expected value"
  | .badEscape => "invalid escape"
  | .badNumber => "invalid number"
  | .numberOutOfRange => "number out of range"
  | .controlCharacter =>
      "control character (\\u0000-\\u001F) found while parsing a string"
  | .nameNotQuoted => "key must be a string"
  | .loneSurrogate => "lone leading surrogate in hex escape"
  | .brokenSurrogatePair => "unexpected end of hex escape"
  | .trailingComma => "trailing comma"
  | .trailingCharacters => "trailing characters"
  | .unfit reason => reason

end Problem

/-- The number of bytes of a text. -/
def byteCount : List Char → Nat
  | [] => 0
  | char :: rest => char.utf8Size + byteCount rest

/-- A problem and where it was met. -/
structure Fault where
  problem : Problem
  /-- The number of bytes that were not read yet. -/
  left : Nat
  deriving DecidableEq, Repr

namespace Fault

/-- The problem is met in front of the rest. -/
def before (problem : Problem) (rest : List Char) : Fault :=
  ⟨problem, byteCount rest⟩

/-- The problem is the first byte of the rest. -/
def onNext (problem : Problem) (rest : List Char) : Fault :=
  ⟨problem, byteCount rest - 1⟩

/-- The line and the column of the place where `read` bytes are read, both being counted
from the given ones on. -/
def place : List Char → (read line column : Nat) → Nat × Nat
  | [], read, line, column => (line, column + read)
  | char :: rest, read, line, column =>
      if read < char.utf8Size then (line, column + read)
      else if char = '\n' then place rest (read - 1) (line + 1) 0
      else place rest (read - char.utf8Size) line (column + char.utf8Size)

/-- The message with the place of the fault in the text. -/
def message (fault : Fault) (chars : List Char) : String :=
  let (line, column) := place chars (byteCount chars - fault.left) 1 0
  fault.problem.message ++ " at line " ++ Text.digits line ++ " column " ++ Text.digits column

end Fault
end Json
end CompositeIndex
