import CompositeIndex.Decimal.Literal
import CompositeIndex.Json.Decoder
import CompositeIndex.Warehouse.Error
import CompositeIndex.Warehouse.Tables

/-!
# A warehouse as a text

A warehouse that lies in a file is kept as one JSON object. Its members are the tables, a
table is a list of rows, and a row is a list of texts. A value is kept by its bits, so that
it comes back unchanged.
-/

namespace CompositeIndex
namespace Warehouse
namespace Snapshot

abbrev Row := List String

/-- The tables by their names. -/
abbrev Tables := List (String × List Row)

def migrationsName : String := "migrations"

def partsName : String := "parts"

def entriesName : String := "entries"

def columnsName : String := "columns"

def pointsName : String := "points"

def attachmentsName : String := "attachments"

def kindName : EntryKind → String
  | .series => "series"
  | .tag => "tag"

def kindOfName? (name : String) : Option EntryKind :=
  [.series, .tag].find? fun kind => kindName kind == name

/-! ## Writing -/

/-- The tables of a warehouse. -/
def ofWarehouse (warehouse : Warehouse) : Tables :=
  [(migrationsName, warehouse.migrations.map fun version => [version]),
    (partsName, warehouse.schema.parts.map fun part => [part.name]),
    (entriesName, warehouse.entries.toList.map fun (name, kind) => [name, kindName kind]),
    (columnsName, warehouse.columns.toList.map fun key => [key.entry, key.column]),
    (pointsName,
      warehouse.points.toList.map fun (key, value) =>
        [key.entry, key.column, Text.signedDigits key.micro,
          Text.digits value.toBits.toNat]),
    (attachmentsName,
      warehouse.attachments.toList.map fun attachment => [attachment.entry, attachment.tag])]

/-- The text of a warehouse. -/
def render (warehouse : Warehouse) : String :=
  Json.render
    (.object
      ((ofWarehouse warehouse).map fun (name, rows) => (name, .array (rows.map .texts))))

/-! ## Reading -/

/-- The rows of a table, if the table is there. -/
def rows? (tables : Tables) (name : String) : Option (List Row) :=
  (tables.find? fun table => table.1 == name).map (·.2)

def natural? (text : String) : Option Nat :=
  let digits := text.toList
  if digits.isEmpty || !digits.all Char.isDigit then none
  else some (Decimal.Literal.digitsValue 0 digits)

def integer? (text : String) : Option Int :=
  match text.toList with
  | '-' :: digits => (natural? (String.ofList digits)).map fun size => -(size : Int)
  | _ => (natural? text).map Int.ofNat

def migration? : Row → Option String
  | [version] => some version
  | _ => none

def part? : Row → Option SchemaPart
  | [name] => SchemaPart.ofName? name
  | _ => none

def entry? : Row → Option (String × EntryKind)
  | [name, kind] => (kindOfName? kind).map fun kind => (name, kind)
  | _ => none

def column? : Row → Option ColumnKey
  | [entry, column] => some ⟨entry, column⟩
  | _ => none

def point? : Row → Option (PointKey × Float)
  | [entry, column, micro, bits] => do
      let micro ← integer? micro
      let bits ← natural? bits
      pure (⟨entry, column, micro⟩, Float.ofBits (UInt64.ofNat bits))
  | _ => none

def attachment? : Row → Option Attachment
  | [entry, tag] => some ⟨entry, tag⟩
  | _ => none

/-- The warehouse with the given tables, if all of them are there and every row makes
sense. -/
def toWarehouse? (tables : Tables) : Option Warehouse := do
  let versions ← (← rows? tables migrationsName).mapM migration?
  let parts ← (← rows? tables partsName).mapM part?
  let entries ← (← rows? tables entriesName).mapM entry?
  let columns ← (← rows? tables columnsName).mapM column?
  let points ← (← rows? tables pointsName).mapM point?
  let attachments ← (← rows? tables attachmentsName).mapM attachment?
  pure
    { entries := .ofList entries
      columns := .ofList columns
      points := .ofList points
      attachments := .ofList attachments
      schema := { versions, parts } }

def parse? (text : String) : Option Warehouse :=
  match Json.Decoder.whole (.dictionary (.array (.array .text))) text.toList with
  | .error _ => none
  | .ok tables => toWarehouse? tables

end Snapshot
end Warehouse
end CompositeIndex
