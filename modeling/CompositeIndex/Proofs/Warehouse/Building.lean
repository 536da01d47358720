import Mathlib.Data.List.Nodup
import CompositeIndex.Warehouse.Migration

/-!
# How the tables are built

A migration creates what is missing of its tables and indexes and is recorded. What exists is left
alone, and a table that does not exist holds no rows that could be lost; so migrations change the
schema and nothing else, also where an earlier one was carried out but not recorded. Migrations of
distinct versions are applied exactly if they are not recorded.
-/

namespace CompositeIndex
namespace Warehouse

variable {tables before middle after : Warehouse}

/-! ## Creating what is missing -/

/-- A table that has not been created holds no rows. -/
structure IsSound (tables : Warehouse) : Prop where
  entries : .entries ∉ tables.schema.parts → tables.entries = ∅
  columns : .columns ∉ tables.schema.parts → tables.columns = ∅
  points : .points ∉ tables.schema.parts → tables.points = ∅
  attachments : .attachments ∉ tables.schema.parts → tables.attachments = ∅

/-- Tables and indexes may have been created, and nothing has happened to any row. -/
structure Extends (before after : Warehouse) : Prop where
  rows : after = { before with schema := after.schema }
  parts : before.schema.parts ⊆ after.schema.parts

namespace Extends

theorem refl (tables : Warehouse) : tables.Extends tables :=
  ⟨rfl, List.Subset.refl _⟩

theorem trans (first : before.Extends middle) (second : middle.Extends after) :
    before.Extends after where
  rows := by rw [second.rows, first.rows]
  parts := List.Subset.trans first.parts second.parts

/-- Creating more takes no soundness away. -/
theorem isSound (extension : before.Extends after) (sound : before.IsSound) : after.IsSound := by
  have stillMissing {part : SchemaPart} (missing : part ∉ after.schema.parts) :
      part ∉ before.schema.parts :=
    fun member => missing (extension.parts member)
  rw [extension.rows]
  exact
    { entries := fun missing => sound.entries (stillMissing missing)
      columns := fun missing => sound.columns (stillMissing missing)
      points := fun missing => sound.points (stillMissing missing)
      attachments := fun missing => sound.attachments (stillMissing missing) }

section

variable {α : Type} {step : Warehouse → α → Warehouse}

/-- Steps that create something make an extension together. -/
theorem foldl
    (extending : ∀ {tables : Warehouse}, tables.IsSound → ∀ item, tables.Extends (step tables item))
    (sound : tables.IsSound)
    (items : List α) :
    tables.Extends (items.foldl step tables) := by
  induction items generalizing tables with
  | nil => exact .refl tables
  | cons item items inductionHypothesis =>
      have first := extending sound item
      exact first.trans (inductionHypothesis (first.isSound sound))

/-- What one of the steps creates is there in the end. -/
theorem mem_parts_foldl
    (extending : ∀ {tables : Warehouse}, tables.IsSound → ∀ item, tables.Extends (step tables item))
    {item : α} {part : SchemaPart}
    (creates : ∀ {tables : Warehouse}, tables.IsSound → part ∈ (step tables item).schema.parts)
    (sound : tables.IsSound)
    {items : List α}
    (member : item ∈ items) :
    part ∈ (items.foldl step tables).schema.parts := by
  induction items generalizing tables with
  | nil => cases member
  | cons first items inductionHypothesis =>
      have firstSound := (extending sound first).isSound sound
      cases member with
      | head => exact (Extends.foldl extending firstSound items).parts (creates sound)
      | tail _ later => exact inductionHypothesis firstSound later

end

end Extends

theorem createPart_of_mem
    {part : SchemaPart}
    (present : part ∈ tables.schema.parts) :
    tables.createPart part = tables := by
  rw [createPart, if_pos (by simpa using present)]

theorem schema_createPart_of_not_mem
    {part : SchemaPart}
    (missing : part ∉ tables.schema.parts) :
    (tables.createPart part).schema =
      { tables.schema with parts := tables.schema.parts ++ [part] } := by
  rw [createPart, if_neg (by simpa using missing)]
  cases part <;> rfl

@[simp] theorem migrations_createPart (part : SchemaPart) (tables : Warehouse) :
    (tables.createPart part).migrations = tables.migrations := by
  by_cases present : part ∈ tables.schema.parts
  · rw [createPart_of_mem present]
  · rw [migrations, schema_createPart_of_not_mem present, migrations]

theorem mem_parts_createPart (part : SchemaPart) (tables : Warehouse) :
    part ∈ (tables.createPart part).schema.parts := by
  by_cases present : part ∈ tables.schema.parts
  · rwa [createPart_of_mem present]
  · rw [schema_createPart_of_not_mem present]
    exact List.mem_append_right _ List.mem_cons_self

/-- Creating a part leaves all rows as they are. -/
theorem extends_createPart (sound : tables.IsSound) (part : SchemaPart) :
    tables.Extends (tables.createPart part) := by
  by_cases present : part ∈ tables.schema.parts
  · rw [createPart_of_mem present]
    exact .refl tables
  · refine ⟨?_, ?_⟩
    case refine_2 =>
      rw [schema_createPart_of_not_mem present]
      exact List.subset_append_left _ _
    rw [schema_createPart_of_not_mem present, createPart, if_neg (by simpa using present)]
    -- A new table replaces the rows that there are not.
    cases part with
    | entries => simp only [sound.entries present]
    | columns => simp only [sound.columns present]
    | points => simp only [sound.points present]
    | attachments => simp only [sound.attachments present]
    | pointsByTime => rfl
    | attachmentsByTag => rfl

theorem extends_createAll (sound : tables.IsSound) (parts : List SchemaPart) :
    tables.Extends (parts.foldl (fun tables part => tables.createPart part) tables) :=
  .foldl extends_createPart sound parts

theorem migrations_createAll (parts : List SchemaPart) (tables : Warehouse) :
    (parts.foldl (fun tables part => tables.createPart part) tables).migrations =
      tables.migrations := by
  induction parts generalizing tables with
  | nil => rfl
  | cons part parts inductionHypothesis =>
      exact (inductionHypothesis _).trans (migrations_createPart part tables)

theorem mem_parts_createAll
    (sound : tables.IsSound)
    {part : SchemaPart}
    {parts : List SchemaPart}
    (member : part ∈ parts) :
    part ∈ (parts.foldl (fun tables part => tables.createPart part) tables).schema.parts :=
  Extends.mem_parts_foldl extends_createPart (fun _ => mem_parts_createPart part _) sound member

/-! ## Migrations -/

namespace Migration

variable {migrations : List Migration} {migration : Migration}

theorem extends_run (sound : tables.IsSound) (migration : Migration) :
    tables.Extends (migration.run tables) :=
  (extends_createAll sound migration.creates).trans ⟨rfl, List.Subset.refl _⟩

theorem migrations_run (migration : Migration) (tables : Warehouse) :
    (migration.run tables).migrations = tables.migrations ++ [migration.version] :=
  congrArg (· ++ [migration.version]) (migrations_createAll migration.creates tables)

/-- Carries out all the migrations, recorded or not. -/
def runAll (migrations : List Migration) (tables : Warehouse) : Warehouse :=
  migrations.foldl (fun tables migration => migration.run tables) tables

theorem extends_runAll (sound : tables.IsSound) (migrations : List Migration) :
    tables.Extends (runAll migrations tables) :=
  .foldl extends_run sound migrations

theorem migrations_runAll (migrations : List Migration) (tables : Warehouse) :
    (runAll migrations tables).migrations =
      tables.migrations ++ migrations.map Migration.version := by
  induction migrations generalizing tables with
  | nil => exact (List.append_nil _).symm
  | cons migration later inductionHypothesis =>
      refine (inductionHypothesis _).trans ?_
      rw [migrations_run, List.append_assoc, List.singleton_append, List.map_cons]

theorem mem_parts_runAll
    (sound : tables.IsSound)
    (member : migration ∈ migrations)
    {part : SchemaPart}
    (created : part ∈ migration.creates) :
    part ∈ (runAll migrations tables).schema.parts :=
  Extends.mem_parts_foldl extends_run (mem_parts_createAll · created) sound member

/-! ## Applying what is not recorded -/

/-- The migrations that are not recorded, in their order. -/
def unrecorded (migrations : List Migration) (recorded : List String) : List Migration :=
  migrations.filter fun migration => !recorded.contains migration.version

theorem unrecorded_append_of_not_mem
    {version : String}
    (absent : version ∉ migrations.map Migration.version)
    (recorded : List String) :
    unrecorded migrations (recorded ++ [version]) = unrecorded migrations recorded := by
  refine List.filter_congr fun migration member => ?_
  have other : migration.version ≠ version := by
    rintro rfl
    exact absent (List.mem_map_of_mem member)
  simp [other]

/-- Exactly the migrations that are not recorded are applied, in their order. -/
theorem apply_eq
    (distinct : (migrations.map Migration.version).Nodup)
    (tables : Warehouse) :
    apply migrations tables =
      (unrecorded migrations tables.migrations,
        runAll (unrecorded migrations tables.migrations) tables) := by
  induction migrations generalizing tables with
  | nil => rfl
  | cons migration later inductionHypothesis =>
      obtain ⟨absent, distinctLater⟩ := List.nodup_cons.mp distinct
      by_cases isRecorded : tables.migrations.contains migration.version = true
      · rw [apply, if_pos isRecorded, inductionHypothesis distinctLater]
        simp only [unrecorded, List.filter_cons, isRecorded, Bool.not_true, Bool.false_eq_true,
          if_false]
      · rw [apply, if_neg isRecorded, inductionHypothesis distinctLater, migrations_run,
          unrecorded_append_of_not_mem absent]
        simp only [unrecorded, List.filter_cons, isRecorded, Bool.not_false, if_true, runAll,
          List.foldl_cons]

/-- Afterwards every migration is recorded once. -/
theorem count_apply
    (distinct : (migrations.map Migration.version).Nodup)
    (unique : tables.migrations.Nodup)
    (member : migration ∈ migrations) :
    (apply migrations tables).2.migrations.count migration.version = 1 := by
  have applied :
      ((unrecorded migrations tables.migrations).map Migration.version).Nodup :=
    (List.filter_sublist.map Migration.version).nodup distinct
  have isNew : ∀ version ∈ (unrecorded migrations tables.migrations).map Migration.version,
      version ∉ tables.migrations := by
    intro version isApplied
    obtain ⟨other, isUnrecorded, rfl⟩ := List.mem_map.mp isApplied
    simpa using (List.mem_filter.mp isUnrecorded).2
  rw [apply_eq distinct, migrations_runAll]
  refine List.count_eq_one_of_mem (unique.append applied fun version old new => ?_) ?_
  · exact isNew version new old
  · by_cases isRecorded : migration.version ∈ tables.migrations
    · exact List.mem_append_left _ isRecorded
    · exact List.mem_append_right _ (List.mem_map_of_mem
        (List.mem_filter.mpr ⟨member, by simpa using isRecorded⟩))

theorem distinct_all : (all.map Migration.version).Nodup := by decide

/-- The migrations create everything that a warehouse consists of. -/
theorem exists_creates (part : SchemaPart) : ∃ migration ∈ all, part ∈ migration.creates := by
  cases part <;> decide

end Migration

/-! ## The tables of this version -/

/-- What a recorded migration creates exists. -/
def IsBuilt (tables : Warehouse) : Prop :=
  ∀ migration ∈ Migration.all, migration.version ∈ tables.migrations →
    ∀ part ∈ migration.creates, part ∈ tables.schema.parts

instance : DecidablePred IsBuilt :=
  fun tables => inferInstanceAs
    (Decidable (∀ migration ∈ Migration.all, migration.version ∈ tables.migrations →
      ∀ part ∈ migration.creates, part ∈ tables.schema.parts))

/-- Every migration is recorded, and none is recorded twice. -/
def IsRecorded (tables : Warehouse) : Prop :=
  ∀ migration ∈ Migration.all, tables.migrations.count migration.version = 1

theorem extends_migrate (sound : tables.IsSound) : tables.Extends tables.migrate := by
  rw [migrate, Migration.apply_eq Migration.distinct_all]
  exact Migration.extends_runAll sound _

theorem isRecorded_migrate (unique : tables.migrations.Nodup) : tables.migrate.IsRecorded :=
  fun _ member => Migration.count_apply Migration.distinct_all unique member

/-- Afterwards everything exists, whether it was there before or has been missing. -/
theorem mem_parts_migrate
    (sound : tables.IsSound)
    (built : tables.IsBuilt)
    (part : SchemaPart) :
    part ∈ tables.migrate.schema.parts := by
  obtain ⟨migration, member, created⟩ := Migration.exists_creates part
  by_cases isRecorded : migration.version ∈ tables.migrations
  · exact (extends_migrate sound).parts (built migration member isRecorded part created)
  · have isMissing : migration ∈ Migration.unrecorded Migration.all tables.migrations :=
      List.mem_filter.mpr ⟨member, by simpa using isRecorded⟩
    rw [migrate, Migration.apply_eq Migration.distinct_all]
    exact Migration.mem_parts_runAll sound isMissing created

namespace IsRecorded

variable (recorded : tables.IsRecorded)

include recorded

/-- What is recorded is part of the schema. -/
theorem congr (same : after.schema = tables.schema) : after.IsRecorded := by
  intro migration member
  rw [migrations, same]
  exact recorded migration member

theorem unrecorded_eq_nil : Migration.unrecorded Migration.all tables.migrations = [] := by
  refine List.filter_eq_nil_iff.mpr fun migration member => ?_
  have isRecorded := List.count_pos_iff.mp (recorded migration member ▸ Nat.one_pos)
  simpa using isRecorded

/-- Where every migration is recorded, none is applied. -/
theorem apply_eq : Migration.apply Migration.all tables = ([], tables) := by
  rw [Migration.apply_eq Migration.distinct_all, recorded.unrecorded_eq_nil]
  rfl

theorem migrate_eq : tables.migrate = tables := by
  rw [migrate, recorded.apply_eq]

end IsRecorded

end Warehouse
end CompositeIndex
