import CompositeIndex.Seed.Seeding
import CompositeIndex.Warehouse.Location
import CompositeIndex.Warehouse.Migration

/-!
# Working on a warehouse

A session is a warehouse that has been opened at a location. Its changes answer with a
reply; one that fails leaves what its earlier parts have done. Closing the warehouse and
opening it again keeps a file and empties a warehouse in memory.
-/

namespace CompositeIndex
namespace Warehouse

inductive Change
  | createSeries (name : String) (columns : List String)
  | removeEntry (name : String)
  | attachTag (entry tag : String)
  | ingest (entry column : String) (samples : List Sample)
  | createIndex (name : String)
  | createProduct (name : String)
  | seed (options : Seed.Options)
  | migrate
  | reopen

inductive Reply
  | done
  /-- Whether something was there, or is new. -/
  | flag (value : Bool)
  | count (value : Nat)
  | seeded (report : Seed.Report)
  deriving DecidableEq, Repr

/-- Opens the tables at a location. -/
def openAt (location : Location) (tables : Warehouse) : Attempt Unit :=
  ⟨.ok (), tables.migrate, tables.openingLog location.path⟩

/-- Opens a warehouse that does not exist yet. -/
def create (location : Location) : Attempt Unit :=
  openAt location empty

/-- The tables that are found when a warehouse is opened again. -/
def kept (location : Location) (tables : Warehouse) : Warehouse :=
  if location.isInMemory then empty else tables

def change (location : Location) (given : Change) (tables : Warehouse) : Attempt Reply :=
  let reply {α : Type} (answer : α → Reply) (attempt : Attempt α) : Attempt Reply :=
    { attempt with result := attempt.result.map answer }
  match given with
  | .createSeries name columns =>
      reply (fun _ => .done) (.perform (fun tables => tables.createSeries name columns) tables)
  | .removeEntry name =>
      reply .flag (.perform (fun tables => tables.removeEntry name) tables)
  | .attachTag entry tag =>
      reply .flag (.perform (fun tables => tables.attachTag entry tag) tables)
  | .ingest entry column samples =>
      reply .count (.perform (fun tables => tables.ingest entry column samples) tables)
  | .createIndex name => reply (fun _ => .done) (Seed.createIndex name tables)
  | .createProduct name => reply (fun _ => .done) (Seed.createProduct name tables)
  | .seed options => reply .seeded (Seed.run options tables)
  | .migrate => ⟨.ok .done, tables.migrate, tables.migrationLog⟩
  | .reopen => reply (fun _ => .done) (openAt location (kept location tables))

/-- Makes changes until one of them fails. -/
def changeAll (location : Location) : List Change → Warehouse → Attempt Unit
  | [], tables => ⟨.ok (), tables, []⟩
  | given :: later, tables =>
      (change location given tables).andThen fun _ tables => changeAll location later tables

end Warehouse
end CompositeIndex
