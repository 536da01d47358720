import Std.Data.ExtTreeSet

/-!
# Sorted sets of names

Listings show names in ascending order of their code points and each name once. A list of
names is brought into this form by `Names.normalize`; a name is looked up in such a list by
bisection.
-/

namespace CompositeIndex
namespace Names

/-- Each name stands before the greater ones, and none stands twice. -/
def Ascending (names : List String) : Prop :=
  names.Pairwise fun first second => compare first second = .lt

@[simp] theorem ascending_nil : Ascending [] := .nil

/-- The names of a list in ascending order, each once. -/
def normalize (names : List String) : List String :=
  (Std.ExtTreeSet.ofList names).toList

/-- Bisection between the positions `low` (included) and `high` (excluded). -/
def searchBetween
    (names : Array String)
    (name : String)
    (low high : Nat)
    (bound : high ≤ names.size) : Bool :=
  if span : low < high then
    let middle := (low + high) / 2
    match compare names[middle] name with
    | .eq => true
    | .lt => searchBetween names name (middle + 1) high bound
    | .gt => searchBetween names name low middle (by omega)
  else
    false
termination_by high - low

/-- Whether a sorted array holds the name, found by bisection. -/
def search (names : Array String) (name : String) : Bool :=
  searchBetween names name 0 names.size (Nat.le_refl _)

/-- Normalizing keeps the names that occur. -/
@[simp] theorem mem_normalize (name : String) (names : List String) :
    name ∈ normalize names ↔ name ∈ names := by
  simp [normalize]

/-- A normalized list is strictly ascending. -/
theorem ascending_normalize (names : List String) : Ascending (normalize names) :=
  Std.ExtTreeSet.ordered_toList

/-- Lists of the same names have the same normal form. -/
theorem normalize_congr
    {first second : List String}
    (same : ∀ name, name ∈ first ↔ name ∈ second) :
    normalize first = normalize second := by
  have equal : Std.ExtTreeSet.ofList first = Std.ExtTreeSet.ofList second := by
    apply Std.ExtTreeSet.ext_mem
    intro name
    simp [Std.ExtTreeSet.mem_ofList, same]
  simp [normalize, equal]

theorem Ascending.nodup {names : List String} (ascending : Ascending names) :
    names.Nodup := by
  refine ascending.imp ?_
  rintro first second smaller rfl
  rw [Std.compare_self] at smaller
  cases smaller

/-- Ascending lists of the same names are equal. -/
theorem Ascending.ext
    {first second : List String}
    (isFirst : Ascending first)
    (isSecond : Ascending second)
    (same : ∀ name, name ∈ first ↔ name ∈ second) :
    first = second := by
  have permuted : first.Perm second :=
    (List.perm_ext_iff_of_nodup isFirst.nodup isSecond.nodup).mpr same
  refine permuted.eq_of_pairwise ?_ isFirst isSecond
  intro left right _ _ smaller greater
  rw [Std.OrientedOrd.eq_swap, greater] at smaller
  cases smaller

end Names
end CompositeIndex
