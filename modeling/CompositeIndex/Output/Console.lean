import CompositeIndex.Output.Event

/-!
# Lines for the console

An index takes one line, after a block with its constituents if they are asked for. The end
of a pass is not shown.
-/

namespace CompositeIndex
namespace Output
namespace Console

def line (text : String) : String :=
  text ++ "\n"

def lines (texts : List String) : String :=
  String.join (texts.map line)

def nameWidth : Nat := 5

def positionWidth : Nat := 4

def constituent (constituent : ConstituentValue) : String :=
  Text.padRight ' ' nameWidth constituent.instrument ++ ": value " ++
    Decimal.plain.write constituent.value

/-- The block with the constituents of an index. -/
def breakdown (value : IndexValue) : List String :=
  if value.constituents.isEmpty then []
  else
    ["", "Products of " ++ value.index ++ ":"] ++ value.constituents.map constituent ++ [""]

/-- The lines of a report. -/
def report : Refresh.Report → List String
  | .computed _ value =>
      breakdown value ++
        ["Index of " ++ value.index ++ " = " ++ Decimal.plain.write value.value]
  | .failed _ index failure =>
      ["Index of " ++ index ++ " failed [" ++ failure.code ++ "]: " ++ failure.message]
  | .finished _ => []

/-- The lines of the entries of a group, numbered from `position` on. -/
def entries (position : Nat) : List String → List String
  | [] => []
  | entry :: rest =>
      (Text.padLeft ' ' positionWidth (Text.digits position) ++ ". " ++ entry) ::
        entries (position + 1) rest

def group (group : Tag × List String) : List String :=
  ["", group.1.labelText ++ ":"] ++ entries 0 group.2

def event : Event → List String
  | .report given => report given
  | .catalog catalog => catalog.toList.flatMap group
  | .seeded store given =>
      ["Seeded " ++ given.index ++ ": " ++ Text.digits given.products ++ " products, " ++
        Text.digits given.points ++ " points into " ++ store]

def render (given : Event) : String :=
  lines (event given)

end Console
end Output
end CompositeIndex
