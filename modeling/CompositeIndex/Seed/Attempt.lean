import CompositeIndex.Log
import CompositeIndex.Warehouse.Operations

/-!
# Attempts

An attempt is a sequence of warehouse operations, each of which is committed by itself. It
ends with the first operation that fails; what the operations before it changed and logged
stays.
-/

namespace CompositeIndex

/-- How far a sequence of operations came. -/
structure Attempt (α : Type) where
  result : Except WarehouseError α
  warehouse : Warehouse
  log : List LogLine

namespace Attempt

/-- One operation. -/
def perform
    (operation : Warehouse → Warehouse.Outcome α)
    (warehouse : Warehouse) : Attempt α :=
  match operation warehouse with
  | .ok (answer, changed) => ⟨.ok answer, changed, []⟩
  | .error error => ⟨.error error, warehouse, []⟩

/-- Nothing but a line in the log. -/
def note (line : LogLine) (answer : α) (warehouse : Warehouse) : Attempt α :=
  ⟨.ok answer, warehouse, [line]⟩

/-- Goes on if everything succeeded so far. -/
def andThen
    (attempt : Attempt α)
    (next : α → Warehouse → Attempt β) : Attempt β :=
  match attempt.result with
  | .error error => ⟨.error error, attempt.warehouse, attempt.log⟩
  | .ok answer =>
      let rest := next answer attempt.warehouse
      { rest with log := attempt.log ++ rest.log }

end Attempt
end CompositeIndex
