import CompositeIndex.Log
import CompositeIndex.Warehouse.Tables

/-!
# Migrations

The tables are built by numbered migrations, each of which creates what is missing of its
tables and indexes. Opening a warehouse applies the migrations that it has not recorded yet,
in their order, and records them; opening it again applies nothing.
-/

namespace CompositeIndex
namespace Warehouse

/-- Creates a table or an index unless it exists. A new table holds no rows; an index holds
nothing of its own. -/
def createPart (part : SchemaPart) (warehouse : Warehouse) : Warehouse :=
  if warehouse.schema.parts.contains part then warehouse
  else
    let parts := warehouse.schema.parts ++ [part]
    let extended := { warehouse with schema := { warehouse.schema with parts } }
    match part with
    | .entries => { extended with entries := ∅ }
    | .columns => { extended with columns := ∅ }
    | .points => { extended with points := ∅ }
    | .attachments => { extended with attachments := ∅ }
    | .pointsByTime => extended
    | .attachmentsByTag => extended

/-- Records a version. -/
def record (version : String) (warehouse : Warehouse) : Warehouse :=
  { warehouse with
    schema := { warehouse.schema with versions := warehouse.schema.versions ++ [version] } }

/-- One step in building the tables. -/
structure Migration where
  /-- The name under which the step is recorded. -/
  version : String
  /-- What the step creates where it is missing, in this order. -/
  creates : List SchemaPart
  deriving DecidableEq, Repr

namespace Migration

/-- The steps that build the tables of this version. -/
def all : List Migration :=
  [⟨"0001_series_catalog", [.entries, .columns, .points, .attachments]⟩,
    ⟨"0002_indexes", [.pointsByTime, .attachmentsByTag]⟩]

/-- Carries out a step and records it. -/
def run (migration : Migration) (warehouse : Warehouse) : Warehouse :=
  (migration.creates.foldl (fun tables part => tables.createPart part) warehouse).record
    migration.version

/-- Carries out the steps that are not recorded; answers them and the warehouse
afterwards. -/
def apply : List Migration → Warehouse → List Migration × Warehouse
  | [], warehouse => ([], warehouse)
  | migration :: later, warehouse =>
      if warehouse.migrations.contains migration.version then apply later warehouse
      else
        let (applied, final) := apply later (migration.run warehouse)
        (migration :: applied, final)

end Migration

def migrate (warehouse : Warehouse) : Warehouse :=
  (Migration.apply Migration.all warehouse).2

/-- What is logged about the migrations that a warehouse still needs. -/
def migrationLog (warehouse : Warehouse) : List LogLine :=
  (Migration.apply Migration.all warehouse).1.map fun migration =>
    .debug ("applying warehouse migration " ++ migration.version)

/-- What is logged when a warehouse is opened at a path. -/
def openingLog (warehouse : Warehouse) (path : String) : List LogLine :=
  warehouse.migrationLog ++ [.debug ("warehouse opened at " ++ path)]

end Warehouse
end CompositeIndex
