import CompositeIndex.Seed.Attempt
import CompositeIndex.Seed.Walk

/-!
# Seeding a warehouse

Seeding creates the Dow Jones index and its thirty instruments, replacing series of the
same names, and fills each instrument with a random walk. The options are checked before
anything is written; after that, every series is created and filled by operations of its
own.
-/

namespace CompositeIndex
namespace Seed

/-- What has been seeded. -/
structure Report where
  index : String
  products : Nat
  /-- The number of points of all instruments together. -/
  points : Nat
  deriving DecidableEq, Repr

/-- Creates a series with a value column that carries a tag, which is listed under
`@tags`. -/
def createTagged (name : String) (tag : Tag) (warehouse : Warehouse) : Attempt Unit :=
  (Attempt.perform (fun tables => tables.createSeries name [valueColumn])
      warehouse).andThen fun _ warehouse =>
    (Attempt.perform (fun tables => tables.attachTag name tag.text)
        warehouse).andThen fun _ warehouse =>
      (Attempt.perform (fun tables => tables.attachTag tag.text Tag.tags.text)
          warehouse).andThen fun _ warehouse =>
        ⟨.ok (), warehouse, []⟩

/-- Creates, or replaces, the series of an index. -/
def createIndex (name : String) (warehouse : Warehouse) : Attempt Unit :=
  (createTagged name Tag.indexes warehouse).andThen fun _ warehouse =>
    .note (.info ("index series " ++ name ++ " created")) () warehouse

/-- Creates, or replaces, the series of an instrument. -/
def createProduct (name : String) (warehouse : Warehouse) : Attempt Unit :=
  createTagged name Tag.products warehouse

/-- Creates an instrument and fills it with samples. -/
def fillProduct
    (name : String)
    (samples : List Warehouse.Sample)
    (warehouse : Warehouse) : Attempt Nat :=
  (createProduct name warehouse).andThen fun _ warehouse =>
    (Attempt.perform (fun tables => tables.ingest name valueColumn samples)
        warehouse).andThen fun written warehouse =>
      .note
        (.debug ("seeded " ++ name ++ " with " ++ Text.digits samples.length ++ " points"))
        written warehouse

/-- Fills the instruments one after the other, each with the next part of one sequence of
random numbers; answers the number of points. -/
def fillProducts
    (timestamps : List Timestamp) :
    List Instrument → Generator → (written : Nat) → Warehouse → Attempt Nat
  | [], _, written, warehouse => ⟨.ok written, warehouse, []⟩
  | instrument :: instruments, generator, written, warehouse =>
      let drawn := instrumentWalk instrument timestamps generator
      (fillProduct instrument.name drawn.1 warehouse).andThen fun added warehouse =>
        fillProducts timestamps instruments drawn.2 (written + added) warehouse

/-- Seeds the Dow Jones index and its instruments. -/
def run (options : Options) (warehouse : Warehouse) : Attempt Report :=
  match timeline options with
  | .error error => ⟨.error error, warehouse, []⟩
  | .ok timestamps =>
      (createIndex Instrument.dowJonesIndex warehouse).andThen fun _ warehouse =>
        (fillProducts timestamps Instrument.dowJones (Generator.ofSeed options.seed) 0
            warehouse).andThen fun written warehouse =>
          .note
            (.info ("seeded " ++ Instrument.dowJonesIndex ++ ": " ++
              Text.digits Instrument.dowJones.length ++ " products, " ++
              Text.digits written ++ " points"))
            ⟨Instrument.dowJonesIndex, Instrument.dowJones.length, written⟩ warehouse

end Seed
end CompositeIndex
