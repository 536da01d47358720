/-!
# Fixed-width pieces of text

Numbers are padded on the left and names on the right, both counted in characters.
-/

namespace CompositeIndex
namespace Text

/-- The decimal digits of a number. -/
def digits (number : Nat) : String :=
  String.ofList (Nat.toDigits 10 number)

/-- The decimal digits of an integer, with a minus sign in front of a negative one. -/
def signedDigits (number : Int) : String :=
  (if number < 0 then "-" else "") ++ digits number.natAbs

/-- The text with as many of `filler` in front of it as it needs to reach `width`. -/
def padLeft (filler : Char) (width : Nat) (text : String) : String :=
  String.ofList (List.replicate (width - text.length) filler) ++ text

/-- The text with as many of `filler` behind it as it needs to reach `width`. -/
def padRight (filler : Char) (width : Nat) (text : String) : String :=
  text ++ String.ofList (List.replicate (width - text.length) filler)

/-- A number with zeros in front of it up to `width` digits. -/
def paddedDigits (width number : Nat) : String :=
  padLeft '0' width (digits number)

/-- The text in single quotes. -/
def quoted (text : String) : String :=
  "'" ++ text ++ "'"

end Text
end CompositeIndex
