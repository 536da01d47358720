import CompositeIndex.Warehouse.Operations

/-!
# Looking up rows

The tables are looked up by kind, declared column, point and attachment. For each way of
changing the tables this module says what a lookup finds afterwards, so that nothing below
has to open the tables again.
-/

namespace CompositeIndex

namespace Warehouse

variable (warehouse : Warehouse)

/-- The entry carries the tag, whether or not the tag exists. -/
def carries (entry tag : String) : Prop :=
  ⟨entry, tag⟩ ∈ warehouse.attachments

/-- The value of a column at a microsecond. -/
def valueAt? (entry column : String) (micro : Int) : Option Float :=
  warehouse.points[(⟨entry, column, micro⟩ : PointKey)]?

theorem declares_iff (entry column : String) :
    warehouse.declares entry column = true ↔ ⟨entry, column⟩ ∈ warehouse.columns :=
  Std.ExtTreeSet.contains_iff_mem

/-- Tables with the same rows are the same. -/
theorem ext_of_lookups
    {first second : Warehouse}
    (kinds : ∀ name, first.kind? name = second.kind? name)
    (columns : ∀ entry column, first.declares entry column = second.declares entry column)
    (points : ∀ entry column micro,
      first.valueAt? entry column micro = second.valueAt? entry column micro)
    (tags : ∀ entry tag, first.carries entry tag ↔ second.carries entry tag)
    (schema : first.schema = second.schema) :
    first = second := by
  obtain ⟨_, _, _, _, _⟩ := first
  obtain ⟨_, _, _, _, _⟩ := second
  rw [Warehouse.mk.injEq]
  refine ⟨?_, ?_, ?_, ?_, schema⟩
  · exact Std.ExtTreeMap.ext_getElem? kinds
  · exact Std.ExtTreeSet.ext_contains fun key => columns key.entry key.column
  · exact Std.ExtTreeMap.ext_getElem? fun key => points key.entry key.column key.micro
  · exact Std.ExtTreeSet.ext_mem fun attachment => tags attachment.entry attachment.tag

/-! ## An empty warehouse -/

/-- A warehouse without any entry, completely built by migrations of the given versions. -/
def blank (versions : List String) : Warehouse :=
  { schema := { versions, parts := SchemaPart.all } }

variable (versions : List String)

@[simp] theorem kind?_blank (name : String) : (blank versions).kind? name = none := by
  simp [blank, kind?]

@[simp] theorem declares_blank (entry column : String) :
    (blank versions).declares entry column = false := by
  simp [blank, declares]

@[simp] theorem valueAt?_blank (entry column : String) (micro : Int) :
    (blank versions).valueAt? entry column micro = none := by
  simp [blank, valueAt?]

@[simp] theorem not_carries_blank (entry tag : String) :
    ¬(blank versions).carries entry tag := by
  simp [blank, carries]

/-! ## Clearing an entry -/

variable (name : String) (kept columns : List String)

@[simp] theorem declares_clearEntry (entry column : String) :
    (warehouse.clearEntry name kept).declares entry column = true ↔
      (entry = name → column ∈ kept) ∧ warehouse.declares entry column = true := by
  simp only [clearEntry, declares_iff, Std.ExtTreeSet.mem_filter]
  by_cases same : entry = name <;> simp [same, and_comm]

@[simp] theorem valueAt?_clearEntry (entry column : String) (micro : Int) :
    (warehouse.clearEntry name kept).valueAt? entry column micro =
      if name = entry then none else warehouse.valueAt? entry column micro := by
  unfold clearEntry valueAt?
  rw [Std.ExtTreeMap.getElem?_filter']
  by_cases same : name = entry
  · simp [same]
  · have different : (entry != name) = true := by simpa using fun equal => same equal.symm
    cases warehouse.points[(⟨entry, column, micro⟩ : PointKey)]? <;> simp [same, different]

@[simp] theorem carries_clearEntry (entry tag : String) :
    (warehouse.clearEntry name kept).carries entry tag ↔
      entry ≠ name ∧ warehouse.carries entry tag := by
  simp [clearEntry, carries, and_comm]

/-! ## Replacing a series -/

@[simp] theorem kind?_replaceSeries (other : String) :
    (warehouse.replaceSeries name columns).kind? other =
      if name = other then some .series else warehouse.kind? other := by
  simp [replaceSeries, clearEntry, kind?, Std.ExtTreeMap.getElem?_insert]

/-- A replaced series declares the listed columns and no others. -/
@[simp] theorem declares_replaceSeries (entry column : String) :
    (warehouse.replaceSeries name columns).declares entry column = true ↔
      if name = entry then column ∈ columns else warehouse.declares entry column = true := by
  have cleared := warehouse.declares_clearEntry name columns entry column
  rw [declares_iff] at cleared ⊢
  unfold replaceSeries
  rw [Std.ExtTreeSet.mem_insertMany_list, cleared]
  by_cases same : name = entry
  · subst same
    simp only [List.contains_eq_mem, List.mem_map, ColumnKey.mk.injEq, decide_eq_true_eq]
    constructor
    · rintro (⟨listed, _⟩ | ⟨other, listed, _, rfl⟩)
      · exact listed trivial
      · exact listed
    · intro listed
      exact Or.inr ⟨column, listed, trivial, rfl⟩
  · have different : entry ≠ name := fun equal => same equal.symm
    simp [same, different]

@[simp] theorem valueAt?_replaceSeries (entry column : String) (micro : Int) :
    (warehouse.replaceSeries name columns).valueAt? entry column micro =
      if name = entry then none else warehouse.valueAt? entry column micro :=
  warehouse.valueAt?_clearEntry name columns entry column micro

@[simp] theorem carries_replaceSeries (entry tag : String) :
    (warehouse.replaceSeries name columns).carries entry tag ↔
      entry ≠ name ∧ warehouse.carries entry tag :=
  warehouse.carries_clearEntry name columns entry tag

/-! ## Deleting an entry -/

@[simp] theorem kind?_deleteEntry (other : String) :
    (warehouse.deleteEntry name).kind? other =
      if name = other then none else warehouse.kind? other := by
  simp [deleteEntry, clearEntry, kind?, Std.ExtTreeMap.getElem?_erase]

@[simp] theorem declares_deleteEntry (entry column : String) :
    (warehouse.deleteEntry name).declares entry column = true ↔
      entry ≠ name ∧ warehouse.declares entry column = true := by
  refine (warehouse.declares_clearEntry name [] entry column).trans ?_
  simp

@[simp] theorem valueAt?_deleteEntry (entry column : String) (micro : Int) :
    (warehouse.deleteEntry name).valueAt? entry column micro =
      if name = entry then none else warehouse.valueAt? entry column micro :=
  warehouse.valueAt?_clearEntry name [] entry column micro

@[simp] theorem carries_deleteEntry (entry tag : String) :
    (warehouse.deleteEntry name).carries entry tag ↔
      entry ≠ name ∧ warehouse.carries entry tag :=
  warehouse.carries_clearEntry name [] entry tag

/-! ## Attaching a tag -/

variable (entry tag : String)

/-- A new tag becomes an entry; an entry that exists keeps its kind. -/
@[simp] theorem kind?_insertAttachment (other : String) :
    (warehouse.insertAttachment entry tag).kind? other =
      if tag = other then some ((warehouse.kind? tag).getD .tag)
      else warehouse.kind? other := by
  unfold kind? insertAttachment
  rw [Std.ExtTreeMap.getElem?_insertIfNew]
  by_cases same : tag = other
  · subst same
    cases found : warehouse.entries[tag]? with
    | none => simp [Std.ExtTreeMap.mem_iff_isSome_getElem?, found]
    | some kind => simp [Std.ExtTreeMap.mem_iff_isSome_getElem?, found]
  · simp [same]

/-- Attaching a tag makes no series. -/
theorem kind?_insertAttachment_ne_series_iff (name : String) :
    (warehouse.insertAttachment entry tag).kind? name ≠ some .series ↔
      warehouse.kind? name ≠ some .series := by
  rw [kind?_insertAttachment]
  split
  · next same =>
      subst same
      cases warehouse.kind? tag <;> simp
  · rfl

@[simp] theorem declares_insertAttachment (name column : String) :
    (warehouse.insertAttachment entry tag).declares name column =
      warehouse.declares name column := rfl

@[simp] theorem valueAt?_insertAttachment (name column : String) (micro : Int) :
    (warehouse.insertAttachment entry tag).valueAt? name column micro =
      warehouse.valueAt? name column micro := rfl

@[simp] theorem carries_insertAttachment (name other : String) :
    (warehouse.insertAttachment entry tag).carries name other ↔
      entry = name ∧ tag = other ∨ warehouse.carries name other := by
  simp [insertAttachment, carries]

/-! ## Adding points -/

variable (column : String) (sample : Sample) (samples : List Sample)

@[simp] theorem kind?_insertPoint (name : String) :
    (warehouse.insertPoint entry column sample).kind? name = warehouse.kind? name := rfl

@[simp] theorem declares_insertPoint (name other : String) :
    (warehouse.insertPoint entry column sample).declares name other =
      warehouse.declares name other := rfl

@[simp] theorem valueAt?_insertPoint (name other : String) (micro : Int) :
    (warehouse.insertPoint entry column sample).valueAt? name other micro =
      if entry = name ∧ column = other ∧ sample.timestamp.micros = micro then
        some sample.value
      else warehouse.valueAt? name other micro := by
  simp [insertPoint, valueAt?, Std.ExtTreeMap.getElem?_insert]

@[simp] theorem carries_insertPoint (name tag : String) :
    (warehouse.insertPoint entry column sample).carries name tag ↔
      warehouse.carries name tag := Iff.rfl

@[simp] theorem insertPoints_nil : warehouse.insertPoints entry column [] = warehouse := rfl

@[simp] theorem insertPoints_cons :
    warehouse.insertPoints entry column (sample :: samples) =
      (warehouse.insertPoint entry column sample).insertPoints entry column samples := rfl

@[simp] theorem kind?_insertPoints (name : String) :
    (warehouse.insertPoints entry column samples).kind? name = warehouse.kind? name := by
  induction samples generalizing warehouse with
  | nil => rfl
  | cons sample samples inductionHypothesis =>
      rw [insertPoints_cons, inductionHypothesis, kind?_insertPoint]

@[simp] theorem declares_insertPoints (name other : String) :
    (warehouse.insertPoints entry column samples).declares name other =
      warehouse.declares name other := by
  induction samples generalizing warehouse with
  | nil => rfl
  | cons sample samples inductionHypothesis =>
      rw [insertPoints_cons, inductionHypothesis, declares_insertPoint]

@[simp] theorem carries_insertPoints (name tag : String) :
    (warehouse.insertPoints entry column samples).carries name tag ↔
      warehouse.carries name tag := by
  induction samples generalizing warehouse with
  | nil => rfl
  | cons sample samples inductionHypothesis =>
      rw [insertPoints_cons, inductionHypothesis, carries_insertPoint]

end Warehouse
end CompositeIndex
