import CompositeIndex.Error

/-!
# Errors of the warehouse

Besides missing tags, entries and columns, the warehouse refuses requests that make no
sense, endpoints that it does not understand, and files that cannot be opened.
-/

namespace CompositeIndex

/-- Why a warehouse operation fails. -/
inductive WarehouseError
  /-- The database itself fails. -/
  | database (problem : String)
  /-- A file or directory cannot be used. -/
  | file (problem : String)
  | unknownTag (tag : String)
  | unknownEntry (entry : String)
  | unknownColumn (entry column : String)
  /-- The endpoint names no store. -/
  | badEndpoint (endpoint : String)
  | rejected (reason : String)
  /-- A timestamp does not exist in UTC. -/
  | outsideCalendar
  deriving DecidableEq, Repr

namespace WarehouseError

def message : WarehouseError → String
  | .database problem => problem
  | .file problem => problem
  | .unknownTag tag => (StoreError.unknownTag tag).message
  | .unknownEntry entry => (StoreError.unknownEntry entry).message
  | .unknownColumn entry column => (StoreError.unknownColumn entry column).message
  | .badEndpoint endpoint =>
      "invalid store endpoint " ++ Text.quoted endpoint ++
        ", expected duckdb://<path> or a file path"
  | .rejected reason => "request rejected: " ++ reason
  | .outsideCalendar => "timestamp outside the calendar"

/-- The error as a reader of the store sees it: whatever is not about a missing tag, entry
or column makes the store unavailable. -/
def toStoreError : WarehouseError → StoreError
  | .unknownTag tag => .unknownTag tag
  | .unknownEntry entry => .unknownEntry entry
  | .unknownColumn entry column => .unknownColumn entry column
  | other => .unavailable other.message

end WarehouseError
end CompositeIndex
