import CompositeIndex.Store.Memory

/-!
# Changes of a store in memory

The changes that a script can make to a store in memory. None of them fails.
-/

namespace CompositeIndex
namespace MemoryStore

/-- A change of a store in memory. -/
inductive Change
  | attach (tag entry : String)
  | createTag (tag : String)
  | createSeries (entry : String)
  | record (entry column : String) (timestamp : Timestamp) (value : Float)
  | setUnavailable (isUnavailable : Bool)
  | failEntry (entry : String)

/-- The store after a change. -/
def apply (store : MemoryStore) : Change → MemoryStore
  | .attach tag entry => store.attach tag entry
  | .createTag tag => store.createTag tag
  | .createSeries entry => store.createSeries entry
  | .record entry column timestamp value => store.record entry column timestamp value
  | .setUnavailable isUnavailable => store.setUnavailable isUnavailable
  | .failEntry entry => store.failEntry entry

/-- The store after several changes. -/
def applyAll (store : MemoryStore) (changes : List Change) : MemoryStore :=
  changes.foldl apply store

end MemoryStore
end CompositeIndex
