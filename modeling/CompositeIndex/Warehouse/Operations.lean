import CompositeIndex.Warehouse.Error
import CompositeIndex.Warehouse.Tables

/-!
# Operations on the warehouse

Every operation either fails, and then leaves the tables as they are, or answers together
with the new tables. An entry takes its rows with it when it is replaced or removed: its
points, its columns and its attachments. Attachments of other entries to a removed tag stay
behind; they are not listed until the tag exists again.
-/

namespace CompositeIndex
namespace Warehouse

/-- The result of an operation that answers and changes the tables. -/
abbrev Outcome (α : Type) := Except WarehouseError (α × Warehouse)

/-- Refuses a name that holds nothing but blanks. -/
def checkName (what name : String) : Except WarehouseError Unit :=
  if Text.isAllBlank name then .error (.rejected (what ++ " must not be empty")) else .ok ()

/-- The tables without the points and attachments of an entry, and with only those of its
columns that are listed. -/
def clearEntry
    (warehouse : Warehouse)
    (name : String)
    (kept : List String) : Warehouse :=
  { warehouse with
    points := warehouse.points.filter fun key _ => key.entry != name
    attachments := warehouse.attachments.filter fun attachment => attachment.entry != name
    columns := warehouse.columns.filter fun key =>
      key.entry != name || kept.contains key.column }

/-- The tables with a series of the given columns, without points and attachments. -/
def replaceSeries
    (warehouse : Warehouse)
    (name : String)
    (columns : List String) : Warehouse :=
  let cleared := warehouse.clearEntry name columns
  { cleared with
    entries := cleared.entries.insert name .series
    columns := cleared.columns.insertMany (columns.map fun column => ⟨name, column⟩) }

def checkSeries
    (warehouse : Warehouse)
    (name : String)
    (columns : List String) : Except WarehouseError Unit := do
  checkName "series name" name
  if columns.isEmpty then
    throw (.rejected
      ("series " ++ Text.quoted name ++ " must declare at least one column"))
  columns.forM (checkName "column name")
  if warehouse.kind? name = some .tag then
    throw (.rejected (Text.quoted name ++ " is a tag and cannot be replaced by a series"))

/-- Creates a series; an existing series of that name is replaced. -/
def createSeries
    (warehouse : Warehouse)
    (name : String)
    (columns : List String) : Outcome Unit :=
  match warehouse.checkSeries name columns with
  | .error error => .error error
  | .ok () => .ok ((), warehouse.replaceSeries name columns)

/-- The tables without an entry and its rows. -/
def deleteEntry (warehouse : Warehouse) (name : String) : Warehouse :=
  let cleared := warehouse.clearEntry name []
  { cleared with entries := cleared.entries.erase name }

/-- Removes an entry; answers whether there was one. -/
def removeEntry (warehouse : Warehouse) (name : String) : Outcome Bool :=
  match warehouse.kind? name with
  | none => .ok (false, warehouse)
  | some _ => .ok (true, warehouse.deleteEntry name)

/-- Checks a request to attach a tag. -/
def checkAttachment
    (warehouse : Warehouse)
    (entry tag : String) : Except WarehouseError Unit := do
  checkName "tag" tag
  if (warehouse.kind? entry).isNone then
    throw (.unknownEntry entry)
  if warehouse.kind? tag = some .series then
    throw (.rejected (Text.quoted tag ++ " is a series and cannot be used as a tag"))

/-- The tables with a tag attached to an entry; the tag is created on its first use. -/
def insertAttachment (warehouse : Warehouse) (entry tag : String) : Warehouse :=
  { warehouse with
    entries := warehouse.entries.insertIfNew tag .tag
    attachments := warehouse.attachments.insert ⟨entry, tag⟩ }

/-- Attaches a tag to an entry; answers whether the attachment is new. -/
def attachTag (warehouse : Warehouse) (entry tag : String) : Outcome Bool :=
  match warehouse.checkAttachment entry tag with
  | .error error => .error error
  | .ok () =>
      .ok (!warehouse.attachments.contains ⟨entry, tag⟩,
        warehouse.insertAttachment entry tag)

/-- The entries that carry a tag, in ascending order. -/
def carriers (warehouse : Warehouse) (tag : String) : List String :=
  (warehouse.attachments.toList.filter fun attachment => attachment.tag == tag).map
    (·.entry)

/-- The entries that carry an existing tag, in ascending order. -/
def entriesByTag
    (warehouse : Warehouse)
    (tag : String) : Except WarehouseError (List String) :=
  if warehouse.kind? tag = some .tag then .ok (warehouse.carriers tag)
  else .error (.unknownTag tag)

def checkColumn
    (warehouse : Warehouse)
    (entry column : String) : Except WarehouseError Unit :=
  if warehouse.kind? entry ≠ some .series then .error (.unknownEntry entry)
  else if warehouse.declares entry column then .ok ()
  else .error (.unknownColumn entry column)

/-- A value with the time that it was taken. -/
structure Sample where
  timestamp : Timestamp
  value : Float

/-- Refuses values that are infinite or not a number. -/
def checkFinite (entry column : String) (samples : List Sample) :
    Except WarehouseError Unit :=
  match samples.find? fun sample => !sample.value.isFinite with
  | none => .ok ()
  | some sample =>
      .error (.rejected
        ("non-finite value " ++ Decimal.plain.write sample.value ++ " for " ++
          Text.quoted (entry ++ "." ++ column)))

/-- The tables with a value for a microsecond, replacing an earlier one. -/
def insertPoint
    (warehouse : Warehouse)
    (entry column : String)
    (sample : Sample) : Warehouse :=
  { warehouse with
    points := warehouse.points.insert ⟨entry, column, sample.timestamp.micros⟩ sample.value }

/-- The tables with all the samples of a batch, later ones replacing earlier ones. -/
def insertPoints
    (warehouse : Warehouse)
    (entry column : String)
    (samples : List Sample) : Warehouse :=
  samples.foldl (fun tables sample => tables.insertPoint entry column sample) warehouse

/-- Adds a batch of samples to a column; answers their number. An empty batch is not
looked at any further. -/
def ingest
    (warehouse : Warehouse)
    (entry column : String)
    (samples : List Sample) : Outcome Nat :=
  if samples.isEmpty then .ok (0, warehouse)
  else
    match checkFinite entry column samples with
    | .error error => .error error
    | .ok () =>
        match warehouse.checkColumn entry column with
        | .error error => .error error
        | .ok () =>
            if samples.all fun sample => sample.timestamp.toUtc?.isSome then
              .ok (samples.length, warehouse.insertPoints entry column samples)
            else .error .outsideCalendar

/-- The values of a column with a microsecond from `start` up to `finish`, in order of
time. -/
def valuesBetween
    (warehouse : Warehouse)
    (entry column : String)
    (start finish : Int) : List Float :=
  (warehouse.points.toList.filter fun point =>
    point.1.isIn entry column && start ≤ point.1.micro && point.1.micro < finish).map (·.2)

/-- The last value of a column with a microsecond from `start` up to `finish`. -/
def lastBetween
    (warehouse : Warehouse)
    (entry column : String)
    (start finish : Int) : Except WarehouseError (Option Float) :=
  match warehouse.checkColumn entry column with
  | .error error => .error error
  | .ok () => .ok (warehouse.valuesBetween entry column start finish).getLast?

/-- The last value of a column between two timestamps, both floored to microseconds. -/
def lastValue
    (warehouse : Warehouse)
    (entry column : String)
    (start finish : Timestamp) : Except WarehouseError (Option Float) :=
  match warehouse.checkColumn entry column with
  | .error error => .error error
  | .ok () =>
      if start.toUtc?.isSome && finish.toUtc?.isSome then
        warehouse.lastBetween entry column start.micros finish.micros
      else .error .outsideCalendar

def reader (warehouse : Warehouse) : Reader where
  entriesByTag := fun tag => (warehouse.entriesByTag tag.text).mapError (·.toStoreError)
  lastValue := fun query =>
    (warehouse.lastBetween query.entry query.column query.window.start
      query.window.finish).mapError (·.toStoreError)

end Warehouse
end CompositeIndex
