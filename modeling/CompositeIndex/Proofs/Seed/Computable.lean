import CompositeIndex.Proofs.Catalog.Discovery
import CompositeIndex.Proofs.Index.Specification
import CompositeIndex.Proofs.Seed.Effect
import CompositeIndex.Proofs.Time.Intervals

/-!
# Computing the index from what has been seeded

Once an empty warehouse has been seeded, its catalog has the index and the thirty instruments.
The walks end one step before the end of the timeline. If a step is at least a microsecond and
at most a day, then the last point of each walk lies in the day before the end, also when the
bounds of the day are floored, and none of the other points is of a later microsecond. So the
index is computed from the last values of the walks.
-/

namespace CompositeIndex

/-! ## The day before a timestamp -/

namespace Window

end Window

/-! ## The last of several samples -/

namespace Seed

/-! ## The end of a timeline -/

section

variable {options : Options} {timestamps : List Timestamp}

end

end Seed

/-! ## What is listed -/

namespace Warehouse

end Warehouse

namespace Seed

section

variable {options : Options} {timestamps : List Timestamp} {versions : List String}
variable {after : Warehouse}

section

variable
  (planted : Warehouse.IsPlanted (seriesOf options timestamps) (Warehouse.blank versions) after)

include planted

end

/-! ## What is computed -/

end

end Seed
end CompositeIndex
