import CompositeIndex.Proofs.Seed.Effect

/-!
# Points in batches

Points are added in batches, one column at a time, and a later point takes the place of an
earlier one of its microsecond. What the tables hold under a key is therefore settled by the
points under this key alone: into how many batches the points are split, and in which order
points under different keys come, leaves no trace.
-/

namespace CompositeIndex
namespace Warehouse

/-! ## Additions -/

/-- The sample can be kept in a column. -/
def Sample.IsKept (sample : Sample) : Prop :=
  sample.value.isFinite = true ∧ InUtc sample.timestamp

/-- A sample with the column that it is added to. -/
structure Addition where
  entry : String
  column : String
  sample : Sample

namespace Addition

/-- The key under which the value is kept. -/
def key (addition : Addition) : PointKey :=
  ⟨addition.entry, addition.column, addition.sample.timestamp.micros⟩

/-- The sample can be kept, and a series declares the column. -/
structure Fits (addition : Addition) (warehouse : Warehouse) : Prop where
  series : warehouse.kind? addition.entry = some .series
  declared : warehouse.declares addition.entry addition.column = true
  kept : addition.sample.IsKept

end Addition

/-! ## Making additions one after the other -/

section

variable (warehouse : Warehouse) (additions more : List Addition)

variable {additions more}

end

/-! ## Batches -/

/-- Samples that are added to a column by one call. -/
structure Batch where
  entry : String
  column : String
  samples : List Sample

namespace Batch

def call (batch : Batch) : Call :=
  .ingest batch.entry batch.column batch.samples

end Batch

end Warehouse
end CompositeIndex
