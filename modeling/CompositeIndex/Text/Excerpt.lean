import CompositeIndex.Text.Layout
import CompositeIndex.Text.Unprintable

/-!
# Texts inside messages

A text that a message quotes is shown so that it stays on one line and can be told apart
from the message: in double quotes, with quotes, backslashes and characters without a glyph
escaped.
-/

namespace CompositeIndex
namespace Text

/-- One character of an excerpt. -/
def excerptChar (char : Char) : List Char :=
  if char = '"' then ['\\', '"']
  else if char = '\\' then ['\\', '\\']
  else if char = '\t' then ['\\', 't']
  else if char = '\n' then ['\\', 'n']
  else if char = '\r' then ['\\', 'r']
  else if char.toNat = 0 then ['\\', '0']
  else if isUnprintable char then
    ['\\', 'u', '{'] ++ Nat.toDigits 16 char.toNat ++ ['}']
  else [char]

/-- The characters as an excerpt in double quotes. -/
def excerpt (chars : List Char) : String :=
  String.ofList (['"'] ++ chars.flatMap excerptChar ++ ['"'])

end Text
end CompositeIndex
