import CompositeIndex.Warehouse.Error

/-!
# How a command fails

A command ends with an exit code and, if it fails, with a message. The code tells apart
settings that are refused, stores that cannot be opened, missing names, missing data, and
output that cannot be written.
-/

namespace CompositeIndex
namespace Command

inductive CommandError
  | failure (cause : Failure)
  | invalid (cause : Invalid)
  | store (cause : StoreError)
  | warehouse (cause : WarehouseError)
  | output (problem : String)
  deriving Repr

namespace CommandError

/-- The exit code of a failure. -/
def failureCode : Failure → Nat
  | .invalid _ => 2
  | .configuration _ => 2
  | .badDivisor _ _ => 2
  | .storeUnavailable _ => 3
  | .tagMissing _ => 4
  | .entryMissing _ => 4
  | .noData _ _ _ => 5
  | .unknownInstrument _ _ => 5
  | .noConstituents _ => 5
  | .output _ => 10

def exitCode : CommandError → Nat
  | .failure cause => failureCode cause
  | .invalid _ => 2
  | .store (.unavailable _) => 3
  | .store _ => 4
  | .warehouse (.rejected _) => 2
  | .warehouse _ => 3
  | .output _ => 10

/-- The message shown to the user; that of a failure starts with its code. -/
def message : CommandError → String
  | .failure cause => cause.code ++ ": " ++ cause.message
  | .invalid cause => cause.message
  | .store cause => cause.message
  | .warehouse cause => cause.message
  | .output problem => problem

end CommandError
end Command
end CompositeIndex
