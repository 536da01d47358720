import CompositeIndex.Json.Decoder
import CompositeIndex.Tag

/-!
# Tags in JSON

A tag is written as a text. A text that is no tag is refused where it ends.
-/

namespace CompositeIndex
namespace Tag

/-- The tag as JSON. -/
def toJson (tag : Tag) : Json :=
  .text tag.text

/-- Reads a tag. -/
def decoder : Json.Decoder Tag := fun chars =>
  match Json.Decoder.text chars with
  | .error fault => .error fault
  | .ok (text, rest) =>
      match parse text with
      | .error cause => .error (.before (.unfit cause.message) rest)
      | .ok tag => .ok (tag, rest)

/-- Reads a tag from a JSON text. -/
def ofJson (raw : String) : Except Json.Fault Tag :=
  Json.Decoder.whole decoder raw.toList

end Tag
end CompositeIndex
