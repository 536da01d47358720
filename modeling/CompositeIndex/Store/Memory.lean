import Std.Data.ExtTreeMap
import Std.Data.ExtTreeSet
import CompositeIndex.Store.Reader

/-!
# A store in memory

The store keeps what it is told: the entries of a tag in the order in which they were
attached, repetitions included, and the points of a column as a log. The last value of a
window is that of the latest microsecond, and of several points of one microsecond the one
recorded last. The store can be made to refuse every read, or the queries for one entry.
-/

namespace CompositeIndex

/-- A recorded value with its microsecond. -/
structure Point where
  micro : Int
  value : Float

/-- A store kept in memory. -/
structure MemoryStore where
  /-- The entries attached to each tag, in order of attachment. -/
  tags : Std.ExtTreeMap String (List String) := ∅
  /-- The points of each column of each series, oldest record first. -/
  series : Std.ExtTreeMap String (Std.ExtTreeMap String (List Point)) := ∅
  /-- Every read is refused. -/
  isUnavailable : Bool := false
  /-- The entries for which value queries are refused. -/
  failing : Std.ExtTreeSet String := ∅
  /-- The number of value queries answered so far, refusals included. -/
  served : Nat := 0

namespace MemoryStore

/-- The store without any tag or series. -/
def empty : MemoryStore := {}

/-- Attaches an entry to a tag, which exists from then on. -/
def attach (store : MemoryStore) (tag entry : String) : MemoryStore :=
  { store with tags := store.tags.insert tag ((store.tags[tag]?.getD []) ++ [entry]) }

/-- Makes a tag exist, with no entry of its own accord. -/
def createTag (store : MemoryStore) (tag : String) : MemoryStore :=
  { store with tags := store.tags.insert tag (store.tags[tag]?.getD []) }

/-- Adds points to a column, which exists from then on. -/
def append
    (store : MemoryStore)
    (entry column : String)
    (points : List Point) : MemoryStore :=
  let columns := store.series[entry]?.getD ∅
  { store with
    series := store.series.insert entry
      (columns.insert column ((columns[column]?.getD []) ++ points)) }

/-- Makes a series with a value column exist, without a point of its own accord. -/
def createSeries (store : MemoryStore) (entry : String) : MemoryStore :=
  store.append entry valueColumn []

/-- Records a value in a column, creating the series and the column if needed. -/
def record
    (store : MemoryStore)
    (entry column : String)
    (timestamp : Timestamp)
    (value : Float) : MemoryStore :=
  store.append entry column [⟨timestamp.micros, value⟩]

/-- Makes the store refuse, or answer again, every read. -/
def setUnavailable (store : MemoryStore) (isUnavailable : Bool) : MemoryStore :=
  { store with isUnavailable }

/-- Makes the store refuse the value queries for an entry. -/
def failEntry (store : MemoryStore) (entry : String) : MemoryStore :=
  { store with failing := store.failing.insert entry }

/-- Counts value queries as answered. -/
def countQueries (store : MemoryStore) (count : Nat) : MemoryStore :=
  { store with served := store.served + count }

/-- The entries of a tag as they were attached. -/
def entriesByTag (store : MemoryStore) (tag : Tag) : Except StoreError (List String) :=
  if store.isUnavailable then .error (.unavailable "in-memory store marked unavailable")
  else
    match store.tags[tag.text]? with
    | some entries => .ok entries
    | none => .error (.unknownTag tag.text)

/-- The point of the latest microsecond in the window, of several the one recorded last. -/
def latestPoint (window : Window) (points : List Point) : Option Point :=
  points.foldl
    (fun latest point =>
      if window.containsMicro point.micro then
        match latest with
        | none => some point
        | some earlier => if earlier.micro ≤ point.micro then some point else latest
      else latest)
    none

/-- The last value of a column inside a window. -/
def lastValue (store : MemoryStore) (query : Query) : Answer :=
  if store.isUnavailable || store.failing.contains query.entry then
    .error (.unavailable
      ("in-memory store refused query for " ++ Text.quoted query.entry))
  else
    match store.series[query.entry]? with
    | none => .error (.unknownEntry query.entry)
    | some columns =>
        match columns[query.column]? with
        | none => .error (.unknownColumn query.entry query.column)
        | some points => .ok ((latestPoint query.window points).map (·.value))

/-- The store as its readers see it. -/
def reader (store : MemoryStore) : Reader where
  entriesByTag := store.entriesByTag
  lastValue := store.lastValue

end MemoryStore
end CompositeIndex
