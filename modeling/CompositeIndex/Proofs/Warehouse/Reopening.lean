import CompositeIndex.Proofs.Warehouse.Building
import CompositeIndex.Proofs.Warehouse.History

/-!
# Opening a warehouse again

Opening a warehouse applies the migrations that it has not recorded, in their order, and nothing
else is written by it. Once every migration is recorded, which nothing undoes, opening changes
nothing. So a history in which the warehouse is opened again and again, at whatever places, cannot
be told from the one without these openings.
-/

namespace CompositeIndex
namespace Warehouse

/-! ## What leaves the schema alone -/

theorem schema_insertPoints
    (tables : Warehouse)
    (entry column : String)
    (samples : List Sample) :
    (tables.insertPoints entry column samples).schema = tables.schema := by
  induction samples generalizing tables with
  | nil => rfl
  | cons sample samples inductionHypothesis => exact inductionHypothesis _

theorem Step.schema_eq
    {tables changed : Warehouse}
    {call : Call}
    (step : Step tables call changed) :
    changed.schema = tables.schema := by
  cases step with
  | created => rfl
  | missed => rfl
  | removed => rfl
  | attached => rfl
  | idled => rfl
  | ingested entry column samples => exact schema_insertPoints _ entry column samples

end Warehouse

namespace Attempt

open Warehouse (Outcome)

/-- The schema is left as it is, whether the attempt succeeds or not. -/
def KeepsSchema (attempt : Warehouse → Attempt α) : Prop :=
  ∀ tables, (attempt tables).warehouse.schema = tables.schema

theorem KeepsSchema.stop (result : Except WarehouseError α) (log : List LogLine) :
    KeepsSchema fun tables => ⟨result, tables, log⟩ :=
  fun _ => rfl

theorem KeepsSchema.perform
    {operation : Warehouse → Outcome α}
    (keeps : ∀ tables answer changed, operation tables = .ok (answer, changed) →
      changed.schema = tables.schema) :
    KeepsSchema (Attempt.perform operation) := by
  intro tables
  unfold Attempt.perform
  split
  next answer changed succeeds => exact keeps tables answer changed succeeds
  next => rfl

theorem KeepsSchema.andThen
    {attempt : Warehouse → Attempt α}
    {next : α → Warehouse → Attempt β}
    (first : KeepsSchema attempt)
    (others : ∀ answer, KeepsSchema (next answer)) :
    KeepsSchema fun tables => (attempt tables).andThen next := by
  intro tables
  change ((attempt tables).andThen next).warehouse.schema = tables.schema
  unfold Attempt.andThen
  split
  next => exact first tables
  next answer _ => exact (others answer _).trans (first tables)

end Attempt

namespace Warehouse

open Attempt (KeepsSchema)

theorem keepsSchema_createSeries (name : String) (columns : List String) :
    KeepsSchema (Attempt.perform fun tables => tables.createSeries name columns) :=
  .perform fun _ _ _ succeeds => (Step.of_createSeries succeeds).schema_eq

theorem keepsSchema_removeEntry (name : String) :
    KeepsSchema (Attempt.perform fun tables => tables.removeEntry name) :=
  .perform fun _ _ _ succeeds => (Step.of_removeEntry succeeds).schema_eq

theorem keepsSchema_attachTag (entry tag : String) :
    KeepsSchema (Attempt.perform fun tables => tables.attachTag entry tag) :=
  .perform fun _ _ _ succeeds => (Step.of_attachTag succeeds).schema_eq

theorem keepsSchema_ingest (entry column : String) (samples : List Sample) :
    KeepsSchema (Attempt.perform fun tables => tables.ingest entry column samples) :=
  .perform fun _ _ _ succeeds => (Step.of_ingest succeeds).schema_eq

end Warehouse

namespace Seed

open Attempt (KeepsSchema)
open Warehouse (keepsSchema_createSeries keepsSchema_attachTag keepsSchema_ingest)

theorem keepsSchema_createTagged (name : String) (tag : Tag) :
    KeepsSchema (createTagged name tag) :=
  (keepsSchema_createSeries _ _).andThen fun _ =>
    (keepsSchema_attachTag _ _).andThen fun _ =>
      (keepsSchema_attachTag _ _).andThen fun _ => .stop _ _

theorem keepsSchema_createIndex (name : String) : KeepsSchema (createIndex name) :=
  (keepsSchema_createTagged _ _).andThen fun _ => .stop _ _

theorem keepsSchema_fillProduct (name : String) (samples : List Warehouse.Sample) :
    KeepsSchema (fillProduct name samples) :=
  (keepsSchema_createTagged _ _).andThen fun _ =>
    (keepsSchema_ingest _ _ _).andThen fun _ => .stop _ _

theorem keepsSchema_fillProducts
    (timestamps : List Timestamp)
    (instruments : List Instrument)
    (generator : Generator)
    (written : Nat) :
    KeepsSchema (fillProducts timestamps instruments generator written) := by
  induction instruments generalizing generator written with
  | nil => exact .stop _ _
  | cons instrument instruments inductionHypothesis =>
      exact (keepsSchema_fillProduct _ _).andThen fun _ => inductionHypothesis _ _

theorem keepsSchema_run (options : Options) : KeepsSchema (run options) := by
  unfold run
  cases timeline options with
  | error error => exact .stop _ _
  | ok timestamps =>
      exact (keepsSchema_createIndex _).andThen fun _ =>
        (keepsSchema_fillProducts _ _ _ _).andThen fun _ => .stop _ _

end Seed

namespace Warehouse

/-! ## Histories with openings -/

/-- What can happen to a warehouse that has been opened. -/
inductive Event
  /-- A change, or a further opening. -/
  | change (given : Change)
  | entriesByTag (tag : String)
  | lastValue (entry column : String) (start finish : Timestamp)

/-- What an event answers, with what is logged. -/
inductive Answer
  | changed (result : Except WarehouseError Reply) (log : List LogLine)
  | entries (result : Except WarehouseError (List String))
  | value (result : Except WarehouseError (Option Float))

namespace Event

/-- The migrations are applied, be it to an open warehouse or after opening it again. -/
def isOpening : Event → Bool
  | .change .migrate => true
  | .change .reopen => true
  | _ => false

/-- What is opened is this warehouse. In memory, another one would be opened. -/
def IsOfSame (location : Location) : Event → Prop
  | .change .reopen => location.isInMemory = false
  | _ => True

/-- The answer, and the tables afterwards. -/
def perform (location : Location) (event : Event) (tables : Warehouse) : Answer × Warehouse :=
  match event with
  | .change given =>
      let attempt := Warehouse.change location given tables
      (.changed attempt.result attempt.log, attempt.warehouse)
  | .entriesByTag tag => (.entries (tables.entriesByTag tag), tables)
  | .lastValue entry column start finish =>
      (.value (tables.lastValue entry column start finish), tables)

/-- The events of a history with their answers. -/
def answers (location : Location) : List Event → Warehouse → List (Event × Answer)
  | [], _ => []
  | event :: later, tables =>
      let (answer, changed) := event.perform location tables
      (event, answer) :: answers location later changed

/-- The tables after a history. -/
def afterAll (location : Location) (events : List Event) (tables : Warehouse) : Warehouse :=
  events.foldl (fun tables event => (event.perform location tables).2) tables

/-- A history without its openings. -/
def requests (events : List Event) : List Event :=
  events.filter fun event => !event.isOpening

section

variable {location : Location} {event : Event} {events : List Event} {tables : Warehouse}

/-- Nothing but an opening changes the schema. -/
theorem schema_perform
    (isRequest : event.isOpening = false) :
    (event.perform location tables).2.schema = tables.schema := by
  cases event with
  | entriesByTag tag => rfl
  | lastValue entry column start finish => rfl
  | change given =>
      cases given with
      | createSeries name columns => exact keepsSchema_createSeries name columns tables
      | removeEntry name => exact keepsSchema_removeEntry name tables
      | attachTag entry tag => exact keepsSchema_attachTag entry tag tables
      | ingest entry column samples => exact keepsSchema_ingest entry column samples tables
      | createIndex name => exact Seed.keepsSchema_createIndex name tables
      | createProduct name => exact Seed.keepsSchema_createTagged name _ tables
      | seed options => exact Seed.keepsSchema_run options tables
      | migrate => cases isRequest
      | reopen => cases isRequest

/-- An opening finds nothing to do where every migration is recorded. -/
theorem perform_of_isOpening
    (recorded : tables.IsRecorded)
    (isOpening : event.isOpening = true)
    (isOfSame : event.IsOfSame location) :
    ∃ log, event.perform location tables = (.changed (.ok .done) log, tables) := by
  cases event with
  | entriesByTag tag => cases isOpening
  | lastValue entry column start finish => cases isOpening
  | change given =>
      cases given with
      | migrate => exact ⟨tables.migrationLog, congrArg (Prod.mk _) recorded.migrate_eq⟩
      | reopen =>
          have inFile : location.isInMemory = false := isOfSame
          have found : kept location tables = tables := by simp [kept, inFile]
          have unchanged : (kept location tables).migrate = tables := by
            rw [found, recorded.migrate_eq]
          exact ⟨_, congrArg (Prod.mk _) unchanged⟩
      | _ => cases isOpening

/-- Once every migration is recorded, no event changes the schema. -/
theorem schema_perform_of_isRecorded
    (recorded : tables.IsRecorded)
    (isOfSame : event.IsOfSame location) :
    (event.perform location tables).2.schema = tables.schema := by
  cases isOpening : event.isOpening with
  | true =>
      obtain ⟨log, unchanged⟩ := perform_of_isOpening recorded isOpening isOfSame
      rw [unchanged]
  | false => exact schema_perform isOpening

theorem isRecorded_perform
    (recorded : tables.IsRecorded)
    (isOfSame : event.IsOfSame location) :
    (event.perform location tables).2.IsRecorded :=
  recorded.congr (schema_perform_of_isRecorded recorded isOfSame)

theorem schema_afterAll
    (recorded : tables.IsRecorded)
    (areOfSame : ∀ event ∈ events, event.IsOfSame location) :
    (afterAll location events tables).schema = tables.schema := by
  induction events generalizing tables with
  | nil => rfl
  | cons event events inductionHypothesis =>
      obtain ⟨isOfSame, othersOfSame⟩ := List.forall_mem_cons.mp areOfSame
      exact (inductionHypothesis (isRecorded_perform recorded isOfSame) othersOfSame).trans
        (schema_perform_of_isRecorded recorded isOfSame)

/-- Leaving the openings out changes neither the answers of the other events nor the tables. -/
theorem answers_requests
    (recorded : tables.IsRecorded)
    (areOfSame : ∀ event ∈ events, event.IsOfSame location) :
    answers location (requests events) tables =
        (answers location events tables).filter (fun answered => !answered.1.isOpening) ∧
      afterAll location (requests events) tables = afterAll location events tables := by
  induction events generalizing tables with
  | nil => exact ⟨rfl, rfl⟩
  | cons event events inductionHypothesis =>
      obtain ⟨isOfSame, othersOfSame⟩ := List.forall_mem_cons.mp areOfSame
      have others := inductionHypothesis (isRecorded_perform recorded isOfSame) othersOfSame
      cases isOpening : event.isOpening with
      | true =>
          obtain ⟨log, unchanged⟩ := perform_of_isOpening recorded isOpening isOfSame
          rw [unchanged] at others
          simpa [requests, answers, afterAll, isOpening, unchanged] using others
      | false => simpa [requests, answers, afterAll, isOpening] using others

end

/-- However often a warehouse is opened again, and wherever in its history, the other events answer
as they do without these openings and lead to the same tables. Each opening succeeds, finds every
migration recorded once, applies none and leaves all tables as they are. The first one may find any
part of them recorded; as a table that does not exist holds no rows, it leaves all rows as they
are, and if what is recorded exists, then every table and index exists from there on. In general
exactly those migrations are applied that are not recorded, in their order. -/
theorem reopening_invisible :
    (∀ (location : Location) (found : Warehouse) (events : List Event),
      found.migrations.Nodup → (∀ event ∈ events, event.IsOfSame location) →
        let opened := (openAt location found).warehouse
        (found.IsSound → opened = { found with schema := opened.schema } ∧
          (found.IsBuilt → ∀ part, part ∈ (afterAll location events opened).schema.parts)) ∧
        opened.IsRecorded ∧
        answers location (requests events) opened =
          (answers location events opened).filter (fun answered => !answered.1.isOpening) ∧
        afterAll location (requests events) opened = afterAll location events opened ∧
        ∀ (before later : List Event) (opening : Event), events = before ++ opening :: later →
          opening.isOpening = true →
            let tables := afterAll location before opened
            (∃ log, opening.perform location tables = (.changed (.ok .done) log, tables)) ∧
              tables.migrationLog = [] ∧ tables.IsRecorded) ∧
    ∀ (migrations : List Migration) (tables : Warehouse),
      (migrations.map Migration.version).Nodup →
        let missing := Migration.unrecorded migrations tables.migrations
        Migration.apply migrations tables = (missing, Migration.runAll missing tables) ∧
          (Migration.runAll missing tables).migrations =
            tables.migrations ++ missing.map Migration.version := by
  refine ⟨?_, fun migrations tables distinct =>
    ⟨Migration.apply_eq distinct tables, Migration.migrations_runAll _ tables⟩⟩
  intro location found events unique areOfSame opened
  have recorded : opened.IsRecorded := isRecorded_migrate unique
  obtain ⟨sameAnswers, sameTables⟩ := answers_requests recorded areOfSame
  refine ⟨fun sound => ⟨(extends_migrate sound).rows, fun built part => ?_⟩, recorded,
    sameAnswers, sameTables, ?_⟩
  · rw [schema_afterAll recorded areOfSame]
    exact mem_parts_migrate sound built part
  intro before later opening split isOpening tables
  rw [split] at areOfSame
  have stillRecorded : tables.IsRecorded :=
    recorded.congr (schema_afterAll recorded fun event member =>
      areOfSame event (List.mem_append_left _ member))
  refine ⟨perform_of_isOpening stillRecorded isOpening
    (areOfSame opening (List.mem_append_right _ List.mem_cons_self)), ?_, stillRecorded⟩
  rw [migrationLog, stillRecorded.apply_eq, List.map_nil]

/-- A warehouse in a file that holds an entry already, but in which the migration that builds the
tables has been cut short: some tables are missing, and only the indexes are recorded. It is
opened, and then opened again before, between and after other events. -/
theorem reopening_invisible_sample :
    let location : Location := ⟨"home", "warehouse.duckdb", 4⟩
    let found : Warehouse :=
      { entries := (∅ : Std.ExtTreeMap String EntryKind).insert "B" .series
        schema := ⟨["0002_indexes"], [.entries, .pointsByTime, .attachmentsByTag]⟩ }
    let opened := (openAt location found).warehouse
    let events : List Event :=
      [.change .reopen, .change (.createSeries "A" ["value"]), .change .migrate,
        .change .reopen, .change (.attachTag "A" "@t"), .entriesByTag "@t", .change .reopen]
    opened.migrations = ["0002_indexes", "0001_series_catalog"] ∧
      opened.entries = found.entries ∧
      (∀ part, part ∈ (afterAll location events opened).schema.parts) ∧
      answers location
          [.change (.createSeries "A" ["value"]), .change (.attachTag "A" "@t"),
            .entriesByTag "@t"] opened =
        (answers location events opened).filter (fun answered => !answered.1.isOpening) ∧
      (Migration.apply [⟨"a", [.entries]⟩, ⟨"b", []⟩, ⟨"c", [.points]⟩]
        { schema := ⟨["b"], []⟩ }).1 = [⟨"a", [.entries]⟩, ⟨"c", [.points]⟩] := by
  intro location found opened events
  have areOfSame : ∀ event ∈ events, event.IsOfSame location := by
    have inFile : location.isInMemory = false := by decide
    simp only [events, List.forall_mem_cons]
    exact ⟨inFile, trivial, trivial, inFile, trivial, trivial, inFile, List.forall_mem_nil _⟩
  have unique : found.migrations.Nodup := List.nodup_singleton _
  have sound : found.IsSound := by constructor <;> simp [found]
  have built : found.IsBuilt := by decide
  obtain ⟨first, _, sameAnswers, _⟩ :=
    reopening_invisible.1 location found events unique areOfSame
  obtain ⟨onlySchema, complete⟩ := first sound
  have applied := reopening_invisible.2 [⟨"a", [.entries]⟩, ⟨"b", []⟩, ⟨"c", [.points]⟩]
    { schema := ⟨["b"], []⟩ } (by decide)
  have sameEntries : opened.entries = found.entries :=
    congrArg (fun tables => tables.entries) onlySchema
  refine ⟨rfl, sameEntries, ?_, sameAnswers, congrArg (·.1) applied.1⟩
  -- Without this step, both sides would be evaluated.
  dsimp only [opened]
  exact complete built

end Event
end Warehouse
end CompositeIndex
