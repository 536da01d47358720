import Std.Data.ExtTreeMap
import Std.Data.ExtTreeSet
import CompositeIndex.Text.Blank
import CompositeIndex.Store.Reader

/-!
# The tables of the warehouse

The warehouse keeps named entries of two kinds, series and tags, in four tables: the
entries with their kinds, the columns that each series declares, the points of each column
by microsecond, and the attachments of tags to entries. Tags are entries themselves, so a
tag can carry tags. A fifth table records the migrations that built the others. Two indexes
serve lookups only.

No table refers to another one by a constraint. What holds between them is kept by the
operations alone.
-/

namespace CompositeIndex

inductive EntryKind
  | series
  /-- A label that other entries can carry. -/
  | tag
  deriving DecidableEq, Repr

@[ext]
structure ColumnKey where
  entry : String
  column : String
  deriving DecidableEq, Repr

@[ext]
structure PointKey where
  entry : String
  column : String
  micro : Int
  deriving DecidableEq, Repr

/-- An entry carries a tag. -/
@[ext]
structure Attachment where
  entry : String
  tag : String
  deriving DecidableEq, Repr

namespace ColumnKey

instance : Ord ColumnKey :=
  ⟨compareLex (compareOn ColumnKey.entry) (compareOn ColumnKey.column)⟩

instance : Std.TransOrd ColumnKey :=
  inferInstanceAs
    (Std.TransCmp (compareLex (compareOn ColumnKey.entry) (compareOn ColumnKey.column)))

instance : Std.LawfulEqOrd ColumnKey where
  eq_of_compare := fun {first second} equal => by
    have both : compareLex (compareOn ColumnKey.entry) (compareOn ColumnKey.column)
        first second = .eq := equal
    simp only [compareLex_eq_eq, compareOn, Std.compare_eq_iff_eq] at both
    exact ColumnKey.ext both.1 both.2

end ColumnKey

namespace PointKey

/-- Points are ordered by series, then by column, then by time. -/
instance : Ord PointKey :=
  ⟨compareLex (compareOn PointKey.entry)
    (compareLex (compareOn PointKey.column) (compareOn PointKey.micro))⟩

instance : Std.TransOrd PointKey :=
  inferInstanceAs
    (Std.TransCmp (compareLex (compareOn PointKey.entry)
      (compareLex (compareOn PointKey.column) (compareOn PointKey.micro))))

instance : Std.LawfulEqOrd PointKey where
  eq_of_compare := fun {first second} equal => by
    have all : compareLex (compareOn PointKey.entry)
        (compareLex (compareOn PointKey.column) (compareOn PointKey.micro))
        first second = .eq := equal
    simp only [compareLex_eq_eq, compareOn, Std.compare_eq_iff_eq] at all
    exact PointKey.ext all.1 all.2.1 all.2.2

/-- The point belongs to the column. -/
def isIn (key : PointKey) (entry column : String) : Bool :=
  key.entry == entry && key.column == column

end PointKey

namespace Attachment

/-- Attachments are ordered by entry, then by tag. -/
instance : Ord Attachment :=
  ⟨compareLex (compareOn Attachment.entry) (compareOn Attachment.tag)⟩

instance : Std.TransOrd Attachment :=
  inferInstanceAs
    (Std.TransCmp (compareLex (compareOn Attachment.entry) (compareOn Attachment.tag)))

instance : Std.LawfulEqOrd Attachment where
  eq_of_compare := fun {first second} equal => by
    have both : compareLex (compareOn Attachment.entry) (compareOn Attachment.tag)
        first second = .eq := equal
    simp only [compareLex_eq_eq, compareOn, Std.compare_eq_iff_eq] at both
    exact Attachment.ext both.1 both.2

end Attachment

/-- A table or an index of the warehouse. -/
inductive SchemaPart
  | entries
  | columns
  | points
  | attachments
  /-- The index of the points by column and time. -/
  | pointsByTime
  /-- The index of the attachments by tag. -/
  | attachmentsByTag
  deriving DecidableEq, Repr

/-- How far the tables have been built. -/
@[ext]
structure Schema where
  /-- The versions of the migrations that have been applied, oldest first. -/
  versions : List String := []
  /-- What has been created, oldest first. -/
  parts : List SchemaPart := []
  deriving DecidableEq, Repr

structure Warehouse where
  /-- The kind of each entry. -/
  entries : Std.ExtTreeMap String EntryKind := ∅
  columns : Std.ExtTreeSet ColumnKey := ∅
  points : Std.ExtTreeMap PointKey Float := ∅
  attachments : Std.ExtTreeSet Attachment := ∅
  schema : Schema := {}

namespace SchemaPart

/-- Everything that a warehouse consists of. -/
def all : List SchemaPart :=
  [.entries, .columns, .points, .attachments, .pointsByTime, .attachmentsByTag]

/-- The name under which the part is kept. -/
def name : SchemaPart → String
  | .entries => "entries"
  | .columns => "series_columns"
  | .points => "series_points"
  | .attachments => "entry_tags"
  | .pointsByTime => "idx_series_points_entry_ts"
  | .attachmentsByTag => "idx_entry_tags_tag"

def ofName? (name : String) : Option SchemaPart :=
  all.find? fun part => part.name == name

end SchemaPart

namespace Warehouse

/-- The versions of the migrations that have been applied, oldest first. -/
def migrations (warehouse : Warehouse) : List String :=
  warehouse.schema.versions

/-- A warehouse without any entry, before its first migration. -/
def empty : Warehouse := {}

/-- The kind of an entry, if there is such an entry. -/
def kind? (warehouse : Warehouse) (name : String) : Option EntryKind :=
  warehouse.entries[name]?

/-- The series declares the column. -/
def declares (warehouse : Warehouse) (entry column : String) : Bool :=
  warehouse.columns.contains ⟨entry, column⟩

end Warehouse
end CompositeIndex
