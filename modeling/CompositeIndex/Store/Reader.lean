import CompositeIndex.Tag
import CompositeIndex.Time.Window

/-!
# Reading from a store

The catalog and the indexes need two reads only: the entries that carry a tag, and the last
value of a column inside a window. A `Reader` is a store seen through these two reads.
-/

namespace CompositeIndex

/-- The column that holds the price of an instrument. -/
def valueColumn : String := "value"

/-- A question for the last value of a column inside a window. -/
structure Query where
  entry : String
  column : String
  /-- Where in time to look. -/
  window : Window
  deriving DecidableEq, Repr

/-- The last value inside the window, if there is a point in it. -/
abbrev Answer := Except StoreError (Option Float)

/-- A store as its readers see it. -/
structure Reader where
  entriesByTag : Tag → Except StoreError (List String)
  lastValue : Query → Answer

end CompositeIndex
