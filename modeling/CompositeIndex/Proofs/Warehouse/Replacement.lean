import CompositeIndex.Proofs.Warehouse.History

/-!
# Replacing a series

Creating a series under a name that a series already has replaces it: the rows that the old and
the new series have in common stay where they are, and the others are deleted or added. Removing
the old series first and creating the new one afterwards takes another way to the same tables.
`IsNewSeries` says of the tables before and after what every lookup finds, which settles them.
-/

namespace CompositeIndex
namespace Warehouse

/-! ## What a new series looks like -/

/-- A name stands for a series that has just been created. Nothing is left of what stood there
before, and everything else is as it was. -/
structure IsNewSeries
    (name : String)
    (columns : List String)
    (before after : Warehouse) : Prop where
  kind : after.kind? name = some .series
  /-- The series declares the listed columns and no others. -/
  columns : ∀ column, after.declares name column = true ↔ column ∈ columns
  points : ∀ column micro, after.valueAt? name column micro = none
  tags : ∀ tag, ¬after.carries name tag
  otherKinds : ∀ other, other ≠ name → after.kind? other = before.kind? other
  otherColumns : ∀ entry, entry ≠ name → ∀ column,
    after.declares entry column = before.declares entry column
  otherPoints : ∀ entry, entry ≠ name → ∀ column micro,
    after.valueAt? entry column micro = before.valueAt? entry column micro
  /-- Where the name itself is carried as a tag, it stays. -/
  otherTags : ∀ entry, entry ≠ name → ∀ tag, after.carries entry tag ↔ before.carries entry tag
  schema : after.schema = before.schema

theorem isNewSeries_replaceSeries
    (warehouse : Warehouse)
    (name : String)
    (columns : List String) :
    IsNewSeries name columns warehouse (warehouse.replaceSeries name columns) where
  kind := by simp
  columns := by simp
  points := by simp
  tags := by simp
  otherKinds := by
    intro other different
    rw [kind?_replaceSeries, if_neg different.symm]
  otherColumns := by
    intro entry different column
    rw [Bool.eq_iff_iff, declares_replaceSeries, if_neg different.symm]
  otherPoints := by
    intro entry different column micro
    rw [valueAt?_replaceSeries, if_neg different.symm]
  otherTags := by
    intro entry different tag
    rw [carries_replaceSeries, and_iff_right different]
  schema := rfl

namespace IsNewSeries

variable {name : String} {columns : List String} {before after other : Warehouse}

/-- The tables in which a series is new are settled by the tables before. -/
theorem unique
    (isNew : IsNewSeries name columns before after)
    (isOther : IsNewSeries name columns before other) :
    after = other := by
  refine ext_of_lookups ?kinds ?columns ?points ?tags
    (isNew.schema.trans isOther.schema.symm)
  case kinds =>
    intro found
    by_cases same : found = name
    · rw [same, isNew.kind, isOther.kind]
    · rw [isNew.otherKinds found same, isOther.otherKinds found same]
  case columns =>
    intro entry column
    by_cases same : entry = name
    · rw [same, Bool.eq_iff_iff, isNew.columns, isOther.columns]
    · rw [isNew.otherColumns entry same, isOther.otherColumns entry same]
  case points =>
    intro entry column micro
    by_cases same : entry = name
    · rw [same, isNew.points, isOther.points]
    · rw [isNew.otherPoints entry same, isOther.otherPoints entry same]
  case tags =>
    intro entry tag
    by_cases same : entry = name
    · rw [same]
      exact iff_of_false (isNew.tags tag) (isOther.tags tag)
    · rw [isNew.otherTags entry same, isOther.otherTags entry same]

/-- It makes no difference to a new series whether its predecessor has been deleted. -/
theorem of_deleteEntry (isNew : IsNewSeries name columns (before.deleteEntry name) after) :
    IsNewSeries name columns before after where
  kind := isNew.kind
  columns := isNew.columns
  points := isNew.points
  tags := isNew.tags
  otherKinds := by
    intro found different
    rw [isNew.otherKinds found different, kind?_deleteEntry, if_neg different.symm]
  otherColumns := by
    intro entry different column
    rw [isNew.otherColumns entry different, Bool.eq_iff_iff, declares_deleteEntry,
      and_iff_right different]
  otherPoints := by
    intro entry different column micro
    rw [isNew.otherPoints entry different, valueAt?_deleteEntry, if_neg different.symm]
  otherTags := by
    intro entry different tag
    rw [isNew.otherTags entry different, carries_deleteEntry, and_iff_right different]
  schema := isNew.schema

end IsNewSeries

/-- Replacing a series leaves the same tables as deleting it and creating the new one. -/
theorem replaceSeries_deleteEntry
    (warehouse : Warehouse)
    (name : String)
    (columns : List String) :
    (warehouse.deleteEntry name).replaceSeries name columns =
      warehouse.replaceSeries name columns := by
  have recreated := isNewSeries_replaceSeries (warehouse.deleteEntry name) name columns
  exact recreated.of_deleteEntry.unique (isNewSeries_replaceSeries warehouse name columns)

/-! ## What keeps a series from being created -/

/-- Something is wrong with the name or the columns of a series. -/
inductive Obstacle (warehouse : Warehouse) (name : String) (columns : List String) : Prop
  | blankName (blank : Text.isAllBlank name = true)
  | noColumns (none : columns = [])
  | blankColumn (column : String) (listed : column ∈ columns)
      (blank : Text.isAllBlank column = true)
  | isTag (isTag : warehouse.kind? name = some .tag)

theorem checkSeries_eq_ok_iff_not_obstacle
    (warehouse : Warehouse)
    (name : String)
    (columns : List String) :
    warehouse.checkSeries name columns = .ok () ↔ ¬Obstacle warehouse name columns := by
  rw [checkSeries_eq_ok_iff]
  constructor
  · rintro ⟨named, nonempty, columnsNamed, notTag⟩ (blank | none | ⟨column, listed, blank⟩ | isTag)
    · rw [named] at blank
      cases blank
    · exact nonempty none
    · rw [columnsNamed column listed] at blank
      cases blank
    · exact notTag isTag
  · intro clear
    refine ⟨?_, fun none => clear (.noColumns none), fun column listed => ?_,
      fun isTag => clear (.isTag isTag)⟩
    · exact Bool.eq_false_iff.mpr fun blank => clear (.blankName blank)
    · exact Bool.eq_false_iff.mpr fun blank => clear (.blankColumn column listed blank)

/-- A check that fails has rejected the request. -/
def OnlyRejects (check : Except WarehouseError Unit) : Prop :=
  ∀ error, check = .error error → ∃ reason, error = .rejected reason

namespace OnlyRejects

theorem pass : OnlyRejects (pure ()) := nofun

theorem reject (reason : String) : OnlyRejects (throw (.rejected reason)) := by
  rintro error ⟨⟩
  exact ⟨reason, rfl⟩

theorem andThen
    {check : Except WarehouseError Unit}
    {next : Unit → Except WarehouseError Unit}
    (first : OnlyRejects check)
    (second : OnlyRejects (next ())) :
    OnlyRejects (check >>= next) := by
  cases check with
  | error error => exact first
  | ok _ => exact second

theorem guard (condition : Prop) [Decidable condition] (reason : String) :
    OnlyRejects (if condition then throw (.rejected reason) else pure ()) := by
  split
  · exact reject reason
  · exact pass

theorem checkName (what name : String) : OnlyRejects (checkName what name) :=
  guard (Text.isAllBlank name = true) _

theorem forM_checkName (what : String) (names : List String) :
    OnlyRejects (names.forM (Warehouse.checkName what)) := by
  induction names with
  | nil => exact pass
  | cons name names inductionHypothesis => exact (checkName what name).andThen inductionHypothesis

theorem checkSeries (warehouse : Warehouse) (name : String) (columns : List String) :
    OnlyRejects (warehouse.checkSeries name columns) := by
  unfold Warehouse.checkSeries
  refine (checkName _ _).andThen ?_
  dsimp only
  split
  · exact reject _
  · exact (forM_checkName _ columns).andThen (guard _ _)

end OnlyRejects

/-! ## The two ways to a new series -/

/-- Where something is wrong with its name or its columns, the series is rejected and the tables
stay as they are. Otherwise it is created, and whether the entry of that name is removed before
makes no difference to the tables. Nothing is left of that entry, and every row of another one
stays as it is. -/
theorem createSeries_eq_recreate
    (warehouse : Warehouse)
    (name : String)
    (columns : List String) :
    (Obstacle warehouse name columns →
      (∃ reason, warehouse.createSeries name columns = .error (.rejected reason)) ∧
        (Call.createSeries name columns).after warehouse = warehouse) ∧
    (¬Obstacle warehouse name columns →
      ∃ replaced removed existed,
        warehouse.createSeries name columns = .ok ((), replaced) ∧
        warehouse.removeEntry name = .ok (existed, removed) ∧
        (existed = true ↔ warehouse.kind? name ≠ none) ∧
        removed.createSeries name columns = .ok ((), replaced) ∧
        IsNewSeries name columns warehouse replaced) := by
  constructor
  · intro obstacle
    cases checked : warehouse.checkSeries name columns with
    | ok _ => exact absurd obstacle ((checkSeries_eq_ok_iff_not_obstacle ..).mp checked)
    | error error =>
        obtain ⟨reason, rfl⟩ := OnlyRejects.checkSeries warehouse name columns error checked
        have rejected : warehouse.createSeries name columns = .error (.rejected reason) := by
          rw [createSeries, checked]
        exact ⟨⟨reason, rejected⟩, by rw [Call.after, Call.perform, rejected]; rfl⟩
  · intro clear
    have checked := (checkSeries_eq_ok_iff_not_obstacle ..).mpr clear
    have created : warehouse.createSeries name columns =
        .ok ((), warehouse.replaceSeries name columns) := by
      rw [createSeries, checked]
    have isNew := isNewSeries_replaceSeries warehouse name columns
    cases found : warehouse.kind? name with
    | none =>
        exact ⟨_, warehouse, false, created, by rw [removeEntry, found], by simp, created, isNew⟩
    | some kind =>
        obtain ⟨named, nonempty, columnsNamed, _⟩ := (checkSeries_eq_ok_iff ..).mp checked
        have recreated : (warehouse.deleteEntry name).createSeries name columns =
            .ok ((), warehouse.replaceSeries name columns) := by
          rw [createSeries_eq_ok_iff, checkSeries_eq_ok_iff, replaceSeries_deleteEntry]
          exact ⟨⟨named, nonempty, columnsNamed, by simp⟩, rfl⟩
        exact ⟨_, _, true, created, by rw [removeEntry, found], by simp, recreated, isNew⟩

/-- Two series carry a tag. -/
def taggingTwo : List Call :=
  [.createSeries "A" ["open", "value"], .createSeries "B" ["value"], .attachTag "A" "@t",
    .attachTag "B" "@t"]

/-- The first series is replaced by one that keeps a column and lists another one twice; the tag
cannot be replaced. -/
theorem createSeries_eq_recreate_sample :
    let warehouse := afterAll taggingTwo (blank [])
    let columns := ["close", "value", "close"]
    (∃ replaced removed,
      warehouse.createSeries "A" columns = .ok ((), replaced) ∧
      warehouse.removeEntry "A" = .ok (true, removed) ∧
      removed.createSeries "A" columns = .ok ((), replaced) ∧
      IsNewSeries "A" columns warehouse replaced) ∧
    ∃ reason, warehouse.createSeries "@t" columns = .error (.rejected reason) := by
  intro warehouse columns
  have known : warehouse.kind? "A" = some .series := by decide +kernel
  have checked : warehouse.checkSeries "A" columns = .ok () := by
    rw [checkSeries_eq_ok_iff]
    decide +kernel
  constructor
  · obtain ⟨replaced, removed, existed, created, deleted, existed_iff, recreated, isNew⟩ :=
      (createSeries_eq_recreate warehouse "A" columns).2
        ((checkSeries_eq_ok_iff_not_obstacle ..).mp checked)
    obtain rfl : existed = true := existed_iff.mpr (by simp [known])
    exact ⟨replaced, removed, created, deleted, recreated, isNew⟩
  · have isTag : warehouse.kind? "@t" = some .tag := by decide +kernel
    exact ((createSeries_eq_recreate warehouse "@t" columns).1 (.isTag isTag)).1

end Warehouse
end CompositeIndex
