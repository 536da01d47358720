import CompositeIndex.Refresh.Activity
import CompositeIndex.Seed.Seeding

/-!
# What is shown to the user

Three things are shown: the reports of the refresh loop, the groups of a catalog, and what
has been seeded.
-/

namespace CompositeIndex
namespace Output

/-- Something that is shown to the user. -/
inductive Event
  | report (report : Refresh.Report)
  | catalog (catalog : Catalog)
  | seeded (store : String) (report : Seed.Report)

end Output
end CompositeIndex
