/-!
# How files fail

What the system says when it does not hand out a file. Most of it carries the number of the
fault.
-/

namespace CompositeIndex
namespace Command

/-- Why a file cannot be used. -/
inductive FileFault
  | notFound
  /-- There is something else in place of a directory. -/
  | fileExists
  /-- The path goes on behind something that is no directory. -/
  | notADirectory
  | isADirectory
  /-- A name, or the text of the path, has too many bytes. -/
  | nameTooLong
  /-- The text of the path contains the character that ends such texts. -/
  | endInside
  | notText
  deriving DecidableEq, Repr

def FileFault.message : FileFault → String
  | .notFound => "No such file or directory (os error 2)"
  | .fileExists => "File exists (os error 17)"
  | .notADirectory => "Not a directory (os error 20)"
  | .isADirectory => "Is a directory (os error 21)"
  | .nameTooLong => "File name too long (os error 36)"
  | .endInside => "file name contained an unexpected NUL byte"
  | .notText => "stream did not contain valid UTF-8"

end Command
end CompositeIndex
