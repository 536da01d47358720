import CompositeIndex.Proofs.Store.Agreement
import CompositeIndex.Proofs.Warehouse.Integrity
import CompositeIndex.Proofs.Warehouse.LastValue
import CompositeIndex.Store.Change

/-!
# Either store will do

A store in memory and a warehouse that are told the same cannot be told apart by a reader.
What they are told is a script: it declares series, each with the one column of values, and
then attaches tags and records values in any order. The store in memory keeps a log where
the warehouse keeps one value for a microsecond, and a list of attachments where the
warehouse keeps a set; `Matches` says how the two forms correspond. The store in memory takes
whatever it is told, so the scripts in question are those that the warehouse accepts.
-/

namespace CompositeIndex

namespace MemoryStore

variable (store : MemoryStore)

/-- The log of a column, if there is such a column. -/
def log? (entry column : String) : Option (List Point) :=
  store.series[entry]?.bind fun columns => columns[column]?

/-- The names attached to a tag, none to a tag that does not exist. -/
def attached (tag : String) : List String :=
  store.tags[tag]?.getD []

/-! ## The store in memory after a change -/

@[simp] theorem log?_empty (entry column : String) : empty.log? entry column = none := by
  simp [log?, empty]

@[simp] theorem attached_empty (tag : String) : empty.attached tag = [] := by
  simp [attached, empty]

variable (tag entry column : String) (points : List Point)

@[simp] theorem attached_attach (other : String) :
    (store.attach tag entry).attached other =
      if tag = other then store.attached tag ++ [entry] else store.attached other := by
  by_cases same : tag = other <;>
    simp [attached, attach, Std.ExtTreeMap.getElem?_insert, same]

@[simp] theorem log?_attach (name other : String) :
    (store.attach tag entry).log? name other = store.log? name other := rfl

@[simp] theorem attached_append (other : String) :
    (store.append entry column points).attached other = store.attached other := rfl

/-- Points go to the end of the log of their column, which exists from then on. -/
@[simp] theorem log?_append (name other : String) :
    (store.append entry column points).log? name other =
      if entry = name ∧ column = other then
        some ((store.log? entry column).getD [] ++ points)
      else store.log? name other := by
  unfold log? append
  rw [Std.ExtTreeMap.getElem?_insert]
  by_cases sameEntry : entry = name
  · subst sameEntry
    by_cases sameColumn : column = other
    · subst sameColumn
      cases store.series[entry]? <;> simp
    · cases store.series[entry]? <;>
        simp [sameColumn, Std.ExtTreeMap.getElem?_insert]
  · simp [sameEntry]

/-! ## Reading from a store in memory -/

/-- The store refuses no read. -/
structure IsOpen : Prop where
  available : store.isUnavailable = false
  willing : store.failing = ∅

variable {store}

theorem IsOpen.entriesByTag_eq (isOpen : store.IsOpen) (tag : Tag) :
    store.entriesByTag tag =
      if tag.text ∈ store.tags then .ok (store.attached tag.text)
      else .error (.unknownTag tag.text) := by
  simp only [entriesByTag, isOpen.available, Std.ExtTreeMap.mem_iff_isSome_getElem?, attached]
  cases store.tags[tag.text]? <;> rfl

/-- The store answers questions about the entry. -/
def Serves (store : MemoryStore) (entry : String) : Prop :=
  store.isUnavailable = false ∧ entry ∉ store.failing

theorem IsOpen.serves (isOpen : store.IsOpen) (entry : String) : store.Serves entry :=
  ⟨isOpen.available, by simp [isOpen.willing]⟩

theorem lastValue_of_serves
    {query : Query}
    (serves : store.Serves query.entry) :
    store.lastValue query =
      if query.entry ∈ store.series then
        match store.log? query.entry query.column with
        | none => .error (.unknownColumn query.entry query.column)
        | some points => .ok ((latestPoint query.window points).map (·.value))
      else .error (.unknownEntry query.entry) := by
  have willing : store.failing.contains query.entry = false :=
    Bool.eq_false_iff.mpr serves.2
  simp only [lastValue, serves.1, willing, Std.ExtTreeMap.mem_iff_isSome_getElem?, log?]
  cases store.series[query.entry]? with
  | none => simp
  | some columns => cases logged : columns[query.column]? <;> simp [logged]

theorem lastValue_of_not_serves
    {query : Query}
    (refuses : ¬store.Serves query.entry) :
    store.lastValue query =
      .error (.unavailable
        ("in-memory store refused query for " ++ Text.quoted query.entry)) := by
  have failing : (store.isUnavailable || store.failing.contains query.entry) = true := by
    by_contra serves
    exact refuses (by simpa [Serves] using serves)
  rw [lastValue, if_pos failing]

end MemoryStore

open Warehouse (Call Step Sample afterAll succeeded blank)

/-! ## Correspondence -/

/-- A warehouse and a store in memory hold the same. -/
structure Matches (warehouse : Warehouse) (store : MemoryStore) : Prop where
  isOpen : store.IsOpen
  series_iff : ∀ entry, warehouse.kind? entry = some .series ↔ entry ∈ store.series
  tag_iff : ∀ tag, warehouse.kind? tag = some .tag ↔ tag ∈ store.tags
  declares_iff : ∀ entry column, warehouse.declares entry column = true ↔
    (store.log? entry column).isSome = true
  valueAt? : ∀ entry column micro, warehouse.valueAt? entry column micro =
    recordedAt ((store.log? entry column).getD []) micro
  carries_iff : ∀ entry tag, warehouse.carries entry tag ↔ entry ∈ store.attached tag

namespace Matches

variable {warehouse : Warehouse} {store : MemoryStore}

theorem blank_empty (versions : List String) : Matches (blank versions) MemoryStore.empty where
  isOpen := ⟨rfl, rfl⟩
  series_iff := by simp [MemoryStore.empty]
  tag_iff := by simp [MemoryStore.empty]
  declares_iff := by simp
  valueAt? := by simp
  carries_iff := by simp

/-- Attaching a tag is the same on both sides if no series has its name. -/
theorem attach
    (matched : Matches warehouse store)
    {tag : String}
    (notSeries : warehouse.kind? tag ≠ some .series)
    (entry : String) :
    Matches (warehouse.insertAttachment entry tag) (store.attach tag entry) where
  isOpen := ⟨matched.isOpen.available, matched.isOpen.willing⟩
  series_iff := by
    intro name
    rw [Warehouse.kind?_insertAttachment, MemoryStore.attach, ← matched.series_iff]
    by_cases same : tag = name
    · subst same
      cases kind : warehouse.kind? tag with
      | none => simp
      | some known => simp
    · rw [if_neg same]
  tag_iff := by
    intro name
    rw [Warehouse.kind?_insertAttachment, MemoryStore.attach, Std.ExtTreeMap.mem_insert,
      Std.compare_eq_iff_eq, ← matched.tag_iff]
    by_cases same : tag = name
    · subst same
      cases kind : warehouse.kind? tag with
      | none => simp
      | some known =>
          cases known with
          | tag => simp
          | series => exact absurd kind notSeries
    · simp [same]
  declares_iff := matched.declares_iff
  valueAt? := matched.valueAt?
  carries_iff := by
    intro name other
    rw [Warehouse.carries_insertAttachment, MemoryStore.attached_attach, matched.carries_iff]
    by_cases same : tag = other
    · subst same
      simp [or_comm, eq_comm]
    · simp [same]

/-- Recording a value is the same on both sides if its column is declared. -/
theorem record
    (matched : Matches warehouse store)
    {entry column : String}
    (series : warehouse.kind? entry = some .series)
    (declared : warehouse.declares entry column = true)
    (sample : Sample) :
    Matches (warehouse.insertPoint entry column sample)
      (store.record entry column sample.timestamp sample.value) where
  isOpen := ⟨matched.isOpen.available, matched.isOpen.willing⟩
  series_iff := by
    intro name
    rw [Warehouse.kind?_insertPoint, MemoryStore.record, MemoryStore.append,
      Std.ExtTreeMap.mem_insert, Std.compare_eq_iff_eq, ← matched.series_iff]
    constructor
    · exact Or.inr
    · rintro (rfl | found)
      · exact series
      · exact found
  tag_iff := matched.tag_iff
  declares_iff := by
    intro name other
    rw [Warehouse.declares_insertPoint, MemoryStore.record, MemoryStore.log?_append]
    split
    · rename_i same
      rw [← same.1, ← same.2]
      simp [declared]
    · exact matched.declares_iff name other
  valueAt? := by
    intro name other micro
    rw [Warehouse.valueAt?_insertPoint, MemoryStore.record, MemoryStore.log?_append,
      matched.valueAt?]
    by_cases sameColumn : entry = name ∧ column = other
    · obtain ⟨rfl, rfl⟩ := sameColumn
      simp only [true_and, and_self, if_true, Option.getD_some, recordedAt_append,
        recordedAt_singleton]
      by_cases sameMicro : sample.timestamp.micros = micro <;> simp [sameMicro]
    · have different :
          ¬(entry = name ∧ column = other ∧ sample.timestamp.micros = micro) :=
        fun same => sameColumn ⟨same.1, same.2.1⟩
      rw [if_neg sameColumn, if_neg different]
  carries_iff := matched.carries_iff

/-- A batch is recorded value by value. -/
theorem recordAll
    (matched : Matches warehouse store)
    {entry column : String}
    (series : warehouse.kind? entry = some .series)
    (declared : warehouse.declares entry column = true)
    (samples : List Sample) :
    Matches (warehouse.insertPoints entry column samples)
      (store.applyAll (samples.map fun sample =>
        .record entry column sample.timestamp sample.value)) := by
  induction samples generalizing warehouse store with
  | nil => exact matched
  | cons sample samples inductionHypothesis =>
      rw [Warehouse.insertPoints_cons]
      exact inductionHypothesis (matched.record series declared sample) series declared

/-! ### What readers see -/

theorem mem_carriers_iff
    (matched : Matches warehouse store)
    (tag name : String) :
    name ∈ store.attached tag ↔ name ∈ warehouse.carriers tag := by
  rw [← matched.carries_iff, Warehouse.mem_carriers_iff]

theorem listing (matched : Matches warehouse store) (tag : Tag) :
    store.reader.listing tag = warehouse.reader.listing tag := by
  change (store.entriesByTag tag).map Names.normalize =
    ((warehouse.entriesByTag tag.text).mapError _).map Names.normalize
  rw [matched.isOpen.entriesByTag_eq, Warehouse.entriesByTag]
  simp only [← matched.tag_iff]
  by_cases isTag : warehouse.kind? tag.text = some .tag
  · rw [if_pos isTag, if_pos isTag]
    exact congrArg Except.ok (Names.normalize_congr (matched.mem_carriers_iff tag.text))
  · rw [if_neg isTag, if_neg isTag]
    rfl

theorem lastValue (matched : Matches warehouse store) (query : Query) :
    store.reader.lastValue query = warehouse.reader.lastValue query := by
  change store.lastValue query = (warehouse.lastBetween _ _ _ _).mapError _
  rw [MemoryStore.lastValue_of_serves (matched.isOpen.serves query.entry)]
  simp only [← matched.series_iff]
  by_cases series : warehouse.kind? query.entry = some .series
  · rw [if_pos series]
    have declares := matched.declares_iff query.entry query.column
    cases log : store.log? query.entry query.column with
    | none =>
        have undeclared : ¬warehouse.declares query.entry query.column = true := by
          simp [declares, log]
        rw [Warehouse.lastBetween, Warehouse.checkColumn, if_neg (not_not.mpr series),
          if_neg undeclared]
        rfl
    | some points =>
        have declared : warehouse.declares query.entry query.column = true := by
          simp [declares, log]
        have held : warehouse.valueAt? query.entry query.column = recordedAt points := by
          funext micro
          rw [matched.valueAt?, log, Option.getD_some]
        obtain ⟨last, answer, isLast⟩ := warehouse.lastBetween_of_declared query.entry
          query.column query.window.start query.window.finish series declared
        rw [held] at isLast
        rw [answer, isLast.unique (MemoryStore.lastIn_latestPoint query.window points)]
        rfl
  · rw [if_neg series, Warehouse.lastBetween, Warehouse.checkColumn, if_pos series]
    rfl

/-- A reader cannot tell the two stores apart. -/
theorem agrees (matched : Matches warehouse store) :
    store.reader.Agrees warehouse.reader where
  listing := matched.listing
  lastValue := matched.lastValue

end Matches

theorem Warehouse.listsExisting (warehouse : Warehouse) : warehouse.reader.ListsExisting := by
  intro tag error fails
  simp only [Warehouse.reader, Warehouse.entriesByTag] at fails
  split at fails
  · cases fails
  · cases fails
    exact ⟨tag.text, rfl⟩

/-! ## Declaring series -/

/-- The stores hold the same, and nothing but declarations so far. -/
structure OnlyDeclares (warehouse : Warehouse) (store : MemoryStore) : Prop
    extends Matches warehouse store where
  noValue : ∀ entry column micro, warehouse.valueAt? entry column micro = none
  noCarrier : ∀ entry tag, ¬warehouse.carries entry tag
  onlyValues : ∀ entry column, warehouse.declares entry column = true → column = valueColumn

namespace OnlyDeclares

variable {warehouse : Warehouse} {store : MemoryStore}

theorem blank_empty (versions : List String) :
    OnlyDeclares (blank versions) MemoryStore.empty where
  toMatches := .blank_empty versions
  noValue := by simp
  noCarrier := by simp
  onlyValues := by simp

/-- Declaring a series is the same on both sides if no tag has its name. -/
theorem declare
    (declaring : OnlyDeclares warehouse store)
    {name : String}
    (notTag : warehouse.kind? name ≠ some .tag) :
    OnlyDeclares (warehouse.replaceSeries name [valueColumn]) (store.createSeries name) where
  isOpen := ⟨declaring.isOpen.available, declaring.isOpen.willing⟩
  series_iff := by
    intro entry
    rw [Warehouse.kind?_replaceSeries, MemoryStore.createSeries, MemoryStore.append,
      Std.ExtTreeMap.mem_insert, Std.compare_eq_iff_eq, ← declaring.series_iff]
    by_cases same : name = entry <;> simp [same]
  tag_iff := by
    intro tag
    rw [Warehouse.kind?_replaceSeries]
    refine Iff.trans ?_ (declaring.tag_iff tag)
    by_cases same : name = tag
    · subst same
      simp [notTag]
    · simp [same]
  declares_iff := by
    intro entry column
    rw [Warehouse.declares_replaceSeries, MemoryStore.createSeries, MemoryStore.log?_append]
    by_cases sameEntry : name = entry
    · subst sameEntry
      by_cases sameColumn : valueColumn = column
      · simp [sameColumn]
      · have different : column ≠ valueColumn := fun same => sameColumn same.symm
        have undeclared := mt (declaring.onlyValues name column) different
        rw [declaring.declares_iff] at undeclared
        simp [sameColumn, different, undeclared]
    · simp [sameEntry, declaring.declares_iff]
  valueAt? := by
    intro entry column micro
    have noPoint := declaring.noValue entry column micro
    rw [Warehouse.valueAt?_replaceSeries, noPoint, ite_self, ← noPoint, declaring.valueAt?,
      MemoryStore.createSeries, MemoryStore.log?_append]
    by_cases same : name = entry ∧ valueColumn = column
    · rw [if_pos same, same.1, same.2, List.append_nil, Option.getD_some]
    · rw [if_neg same]
  carries_iff := by
    intro entry tag
    rw [Warehouse.carries_replaceSeries, MemoryStore.createSeries,
      MemoryStore.attached_append, ← declaring.carries_iff]
    simp [declaring.noCarrier]
  noValue := by simp [declaring.noValue]
  noCarrier := by simp [declaring.noCarrier]
  onlyValues := by
    intro entry column
    rw [Warehouse.declares_replaceSeries]
    split
    · exact List.mem_singleton.mp
    · exact declaring.onlyValues entry column

/-- A declaration that the warehouse accepts keeps the two stores alike. -/
theorem of_step
    {changed : Warehouse}
    {name : String}
    (declaring : OnlyDeclares warehouse store)
    (step : Step warehouse (.createSeries name [valueColumn]) changed) :
    OnlyDeclares changed (store.createSeries name) := by
  cases step with
  | created _ _ nonempty notTag => exact declaring.declare notTag

end OnlyDeclares

/-! ## Scripts -/

/-- What either store is told once the series have been declared. -/
inductive Action
  /-- A tag is attached to an entry. -/
  | attach (entry tag : String)
  /-- A batch of values is recorded for a series. -/
  | record (entry : String) (samples : List Sample)

namespace Action

/-- The action as a call of the warehouse. -/
def call : Action → Call
  | .attach entry tag => .attachTag entry tag
  | .record entry samples => .ingest entry valueColumn samples

/-- The action as changes of a store in memory, which takes values one by one. -/
def changes : Action → List MemoryStore.Change
  | .attach entry tag => [.attach tag entry]
  | .record entry samples =>
      samples.map fun sample => .record entry valueColumn sample.timestamp sample.value

/-- What the warehouse accepts keeps the two stores alike. -/
theorem matches_of_step
    {warehouse changed : Warehouse}
    {store : MemoryStore}
    {action : Action}
    (matched : Matches warehouse store)
    (step : Step warehouse action.call changed) :
    Matches changed (store.applyAll action.changes) := by
  cases action with
  | attach entry tag =>
      cases step with
      | attached _ _ found notSeries => exact matched.attach notSeries entry
  | record entry samples =>
      cases step with
      | idled _ _ => exact matched
      | ingested _ _ _ finite series declared =>
          exact matched.recordAll series declared samples

end Action

/-- What either store is told. -/
structure Script where
  /-- The series that are declared first, each with the one column of values. -/
  series : List String
  /-- What is done afterwards. -/
  actions : List Action

namespace Script

/-- The declarations as calls of the warehouse. -/
def declarations (script : Script) : List Call :=
  script.series.map fun name => .createSeries name [valueColumn]

/-- The script as calls of the warehouse. -/
def calls (script : Script) : List Call :=
  script.declarations ++ script.actions.map Action.call

/-- The script as changes of a store in memory. -/
def changes (script : Script) : List MemoryStore.Change :=
  script.series.map .createSeries ++ script.actions.flatMap Action.changes

end Script

theorem OnlyDeclares.declareAll
    {warehouse : Warehouse}
    {store : MemoryStore}
    (declaring : OnlyDeclares warehouse store)
    {names : List String}
    (succeed : Warehouse.AllSucceed
      (names.map fun name => .createSeries name [valueColumn]) warehouse) :
    OnlyDeclares
      (afterAll (names.map fun name => .createSeries name [valueColumn]) warehouse)
      (store.applyAll (names.map .createSeries)) := by
  induction names generalizing warehouse store with
  | nil => exact declaring
  | cons name names inductionHypothesis =>
      obtain ⟨step, rest⟩ := succeed.step
      exact inductionHypothesis (declaring.of_step step) rest

theorem Matches.actAll
    {warehouse : Warehouse}
    {store : MemoryStore}
    (matched : Matches warehouse store)
    {actions : List Action}
    (succeed : Warehouse.AllSucceed (actions.map Action.call) warehouse) :
    Matches (afterAll (actions.map Action.call) warehouse)
      (store.applyAll (actions.flatMap Action.changes)) := by
  induction actions generalizing warehouse store with
  | nil => exact matched
  | cons action actions inductionHypothesis =>
      obtain ⟨step, rest⟩ := succeed.step
      rw [List.flatMap_cons, MemoryStore.applyAll, List.foldl_append]
      exact inductionHypothesis (Action.matches_of_step matched step) rest

/-- The two stores hold the same after a script that the warehouse accepts. -/
theorem Script.matches_of_allSucceed
    (script : Script)
    (versions : List String)
    (accepted : Warehouse.AllSucceed script.calls (blank versions)) :
    Matches (afterAll script.calls (blank versions))
      (MemoryStore.empty.applyAll script.changes) := by
  have declared := (OnlyDeclares.blank_empty versions).declareAll accepted.left
  have acted := declared.toMatches.actAll accepted.right
  rw [calls, Warehouse.afterAll_append, changes, MemoryStore.applyAll, List.foldl_append]
  exact acted

/-- A store in memory and a warehouse that have been told the same give every reader the
same last values and the same listings, hence the same catalog and the same indexes. -/
theorem interchangeable
    (script : Script)
    (versions : List String)
    (accepted : Warehouse.AllSucceed script.calls (blank versions)) :
    let memory := (MemoryStore.empty.applyAll script.changes).reader
    let tables := (afterAll script.calls (blank versions)).reader
    (∀ query, memory.lastValue query = tables.lastValue query) ∧
    (∀ tag, (memory.entriesByTag tag).map Names.normalize =
      (tables.entriesByTag tag).map Names.normalize) ∧
    (Catalog.discover memory).result = (Catalog.discover tables).result ∧
    ∀ (aggregator : Aggregator) index constituents window reportEach,
      aggregator.compute memory index constituents window reportEach =
        aggregator.compute tables index constituents window reportEach := by
  have agrees := (script.matches_of_allSucceed versions accepted).agrees
  refine ⟨agrees.lastValue, agrees.listing, ?_, ?_⟩
  · exact Catalog.discover_result_congr agrees (Warehouse.listsExisting _)
  · exact Aggregator.compute_congr agrees

/-- A series with two values for one microsecond, one of them in another offset, and a tag
that carries a tag. -/
theorem interchangeable_sample :
    let script : Script := ⟨["A"],
      [.attach "A" "@products", .attach "@products" "@tags", .record "A"
        [⟨⟨1772452800000000000, 0, by decide⟩, 1.5⟩,
          ⟨⟨1772452800000000001, 3600, by decide⟩, 2.5⟩]]⟩
    Warehouse.AllSucceed script.calls (blank []) ∧
      (MemoryStore.empty.applyAll script.changes).reader.lastValue
          ⟨"A", valueColumn, ⟨1772452800000000, 1772452800000001⟩⟩ =
        (afterAll script.calls (blank [])).reader.lastValue
          ⟨"A", valueColumn, ⟨1772452800000000, 1772452800000001⟩⟩ := by
  intro script
  have accepted : Warehouse.AllSucceed script.calls (blank []) := by
    refine (Warehouse.allSucceed_cons_iff ..).mpr ⟨⟨_, _, rfl⟩, ?_⟩
    refine (Warehouse.allSucceed_cons_iff ..).mpr ⟨⟨_, _, rfl⟩, ?_⟩
    refine (Warehouse.allSucceed_cons_iff ..).mpr ⟨⟨_, _, rfl⟩, ?_⟩
    refine (Warehouse.allSucceed_cons_iff ..).mpr ⟨⟨_, _, rfl⟩, ?_⟩
    exact Warehouse.allSucceed_nil _
  exact ⟨accepted, (interchangeable script [] accepted).1 _⟩

end CompositeIndex
