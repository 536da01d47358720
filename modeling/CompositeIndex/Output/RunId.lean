import CompositeIndex.Text.Layout

/-!
# Run identifiers

The records of one run carry the same 128-bit identifier, so that the records of several
runs can be told apart. It is written as 32 lower-case hexadecimal digits in groups of 8, 4,
4, 4 and 12; it may be given in either letter case and without the hyphens.
-/

namespace CompositeIndex

/-- A 128-bit identifier. -/
structure RunId where
  value : Fin (Nat.pow 2 128)
  deriving DecidableEq, Repr

namespace RunId

def digitCount : Nat := 32

/-- The positions in the digits that have a hyphen in front. -/
def hyphenPositions : List Nat := [8, 12, 16, 20]

/-- The digits with hyphens between the groups, the first digit being at `position`. -/
def group (position : Nat) : List Char → List Char
  | [] => []
  | digit :: digits =>
      (if hyphenPositions.contains position then ['-', digit] else [digit]) ++
        group (position + 1) digits

def text (id : RunId) : String :=
  let digits := Text.padLeft '0' digitCount (String.ofList (Nat.toDigits 16 id.value.val))
  String.ofList (group 0 digits.toList)

/-- The number that random bits are turned into. Six bits are replaced and say that the
identifier is a random one: four in front of the last 76, and two in front of the last 62. -/
def markedBits (bits : Nat) : Nat :=
  bits / Nat.pow 2 80 * Nat.pow 2 80 + 4 * Nat.pow 2 76 +
    bits / Nat.pow 2 64 % Nat.pow 2 12 * Nat.pow 2 64 + 2 * Nat.pow 2 62 +
    bits % Nat.pow 2 62

/-- The identifier made of 128 random bits. -/
def ofRandom (bits : Nat) : RunId :=
  ⟨markedBits bits % Nat.pow 2 128, Nat.mod_lt _ (by decide)⟩

/-- The value of a hexadecimal digit. -/
def digitValue? (char : Char) : Option Nat :=
  if char.isDigit then some (char.toNat - '0'.toNat)
  else
    let lower := char.toLower
    if 'a' ≤ lower && lower ≤ 'f' then some (lower.toNat - 'a'.toNat + 10) else none

/-- The number that hexadecimal digits stand for. -/
def digitsValue? (digits : List Char) : Option Nat :=
  digits.foldlM (fun value digit => (digitValue? digit).map (16 * value + ·)) 0

/-- Reads an identifier, grouped or not. -/
def parse? (text : String) : Option RunId :=
  let digits := text.toList.filter (· != '-')
  if digits.length = digitCount && (text.toList = digits || text.toList = group 0 digits) then
    (digitsValue? digits).bind fun value =>
      if bound : value < Nat.pow 2 128 then some ⟨⟨value, bound⟩⟩ else none
  else none

example : (ofRandom 0).text = "00000000-0000-4000-8000-000000000000" := by decide +kernel

end RunId
end CompositeIndex
