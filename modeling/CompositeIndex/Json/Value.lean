import CompositeIndex.Decimal.Layout

/-!
# JSON values

Reports and configurations are written as JSON on one line without blanks. The members of
an object keep their order. Numbers are kept as they are written, so that a count and a
measured value differ in their texts.
-/

namespace CompositeIndex

/-- A JSON value; a number is given by its text. -/
inductive Json
  | null
  | boolean (value : Bool)
  | number (literal : String)
  | text (value : String)
  | array (items : List Json)
  | object (members : List (String × Json))

namespace Json

/-- Four hexadecimal digits of a code point below 2¹⁶. -/
def hexDigits (code : Nat) : List Char :=
  [Nat.digitChar (code / 4096 % 16), Nat.digitChar (code / 256 % 16),
    Nat.digitChar (code / 16 % 16), Nat.digitChar (code % 16)]

/-- One character inside a quoted text. Quotes, backslashes and controls are escaped, all
others stand for themselves. -/
def escapeChar (char : Char) : List Char :=
  if char = '"' then ['\\', '"']
  else if char = '\\' then ['\\', '\\']
  else if char.toNat = 8 then ['\\', 'b']
  else if char.toNat = 9 then ['\\', 't']
  else if char.toNat = 10 then ['\\', 'n']
  else if char.toNat = 12 then ['\\', 'f']
  else if char.toNat = 13 then ['\\', 'r']
  else if char.toNat < 32 then ['\\', 'u'] ++ hexDigits char.toNat
  else [char]

/-- The characters as a quoted text. -/
def quote (chars : List Char) : List Char :=
  ['"'] ++ chars.flatMap escapeChar ++ ['"']

/-- How measured values are written: with the fewest digits, the point being shown, and an
exponent with its sign below `10 ^ -5` and from `10 ^ 16` on. A value that is no number is
null. -/
def measureLayout : Decimal.Layout where
  positionalFrom := some (-4)
  positionalTo := some 16
  integralEnd := ".0"
  exponentPlus := "+"
  tie := .even
  nan := "null"
  infinite := "null"
  negativeInfinite := "null"

/-- A measured value. -/
def measure (value : Float) : Json :=
  if value.isFinite then .number (measureLayout.write value) else .null

def count (value : Nat) : Json :=
  .number (Text.digits value)

def texts (values : List String) : Json :=
  .array (values.map .text)

mutual

/-- The text of a value. -/
def renderChars : Json → List Char
  | .null => ['n', 'u', 'l', 'l']
  | .boolean true => ['t', 'r', 'u', 'e']
  | .boolean false => ['f', 'a', 'l', 's', 'e']
  | .number literal => literal.toList
  | .text value => quote value.toList
  | .array items => ['['] ++ renderItems items ++ [']']
  | .object members => ['{'] ++ renderMembers members ++ ['}']

/-- The texts of the items of an array, divided by commas. -/
def renderItems : List Json → List Char
  | [] => []
  | [item] => item.renderChars
  | item :: next :: rest => item.renderChars ++ [','] ++ renderItems (next :: rest)

/-- The texts of the members of an object, divided by commas. -/
def renderMembers : List (String × Json) → List Char
  | [] => []
  | [(name, value)] => quote name.toList ++ [':'] ++ value.renderChars
  | (name, value) :: next :: rest =>
      quote name.toList ++ [':'] ++ value.renderChars ++ [','] ++
        renderMembers (next :: rest)

end

def render (json : Json) : String :=
  String.ofList json.renderChars

example : measureLayout.write 1e15 = "1000000000000000.0" := by decide +kernel
example : measureLayout.write 1e16 = "1e+16" := by decide +kernel
example : measureLayout.write 1e-5 = "0.00001" := by decide +kernel
example : measureLayout.write 1e-6 = "1e-6" := by decide +kernel
example : measureLayout.write 2.98023223876953125e-8 = "2.9802322387695312e-8" := by
  decide +kernel

end Json
end CompositeIndex
