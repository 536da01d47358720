import CompositeIndex.Command.FileFault
import CompositeIndex.Warehouse.Location

/-!
# Paths

A path is the list of names that leads from the current directory to a file; the current
directory itself is the empty list. In a text the names are divided by slashes. Some texts
are refused before any file is looked at, and so are names that are too long.
-/

namespace CompositeIndex
namespace Command

/-- The names that lead from the current directory to a file. -/
abbrev Path := List String

namespace Path

/-- The name of the highest directory. -/
def top : String := "/"

/-- The name that leads one directory up. -/
def up : String := ".."

/-- The part of a text leads nowhere. -/
def isIdle (part : String) : Bool :=
  part == "" || part == "."

/-- The path leads to the highest directory, or to one above the current directory. -/
def isAbove (path : Path) : Bool :=
  path.all fun name => name == top || name == up

/-- The path one part further. Two dots lead back. -/
def enter (path : Path) (part : String) : Path :=
  if isIdle part || (part == up && path == [top]) then path
  else if part == up && !path.isAbove then path.dropLast
  else path ++ [part]

/-- The path from which the parts of a text lead on. -/
def startOf (text : String) : Path :=
  if text.toList.head? = some '/' then [top] else []

/-- The parts of a text. -/
def partsOf (text : String) : List String :=
  text.splitOn "/"

def ofText (text : String) : Path :=
  (partsOf text).foldl enter (startOf text)

/-- The paths that parts lead through from a path on, with both ends. -/
def trail : Path → List String → List Path
  | here, [] => [here]
  | here, part :: parts => here :: trail (here.enter part) parts

/-- The paths of the directories above a path, the highest one first. -/
def ancestors (path : Path) : List Path :=
  (List.range path.length).map fun count => path.take count

def text (path : Path) : String :=
  path.foldl joinPath ""

/-! ## Texts -/

def withoutIdleEnd (parts : List String) : List String :=
  (parts.reverse.dropWhile isIdle).reverse

/-- The text of the directory in which a file lies; it is empty for the directory that the
path starts from. -/
def directoryText (text : String) : String :=
  String.intercalate "/" (withoutIdleEnd (withoutIdleEnd (partsOf text)).dropLast)

/-! ## Limits -/

/-- The largest number of bytes in a name. -/
def nameLimit : Nat := 255

/-- The largest number of bytes in the text of a path. -/
def textLimit : Nat := 4095

/-- The name has too many bytes. -/
def isTooLong (name : String) : Bool :=
  nameLimit < name.utf8ByteSize

/-- The character that ends texts for the system. -/
def textEnd : Char := Char.ofNat 0

/-- Why the system refuses a text before it looks at any file, if it does. -/
def fault? (text : String) : Option FileFault :=
  if text.contains textEnd then some .endInside
  else if text.isEmpty then some .notFound
  else if textLimit < text.utf8ByteSize then some .nameTooLong
  else none

end Path
end Command
end CompositeIndex
