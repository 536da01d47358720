import CompositeIndex.Proofs.Warehouse.Lookup
import CompositeIndex.Warehouse.Session

/-!
# Histories of a warehouse

A history is a sequence of calls of the four operations that change the tables. Some of the
calls fail; such a call leaves the tables as they are. `Step` lists everything that a call
can do when it succeeds, together with what it has checked. An invariant of all histories is
proved by going through this list.
-/

namespace CompositeIndex
namespace Warehouse

/-- A call of an operation that changes the tables. -/
inductive Call
  /-- Creates, or replaces, a series. -/
  | createSeries (name : String) (columns : List String)
  /-- Removes an entry. -/
  | removeEntry (name : String)
  /-- Attaches a tag to an entry. -/
  | attachTag (entry tag : String)
  /-- Adds samples to a column. -/
  | ingest (entry column : String) (samples : List Sample)

namespace Call

/-- The call as a change of an open warehouse. -/
def toChange : Call → Change
  | .createSeries name columns => .createSeries name columns
  | .removeEntry name => .removeEntry name
  | .attachTag entry tag => .attachTag entry tag
  | .ingest entry column samples => .ingest entry column samples

/-- The outcome of an operation with its answer as a reply. -/
def replying (answer : α → Reply) (outcome : Outcome α) : Outcome Reply :=
  outcome.map fun (value, changed) => (answer value, changed)

/-- What the call answers together with the new tables, or how it fails. -/
def perform (call : Call) (warehouse : Warehouse) : Outcome Reply :=
  match call with
  | .createSeries name columns =>
      replying (fun _ => .done) (warehouse.createSeries name columns)
  | .removeEntry name => replying .flag (warehouse.removeEntry name)
  | .attachTag entry tag => replying .flag (warehouse.attachTag entry tag)
  | .ingest entry column samples => replying .count (warehouse.ingest entry column samples)

/-- The tables after the call; a call that fails leaves them as they are. -/
def after (call : Call) (warehouse : Warehouse) : Warehouse :=
  match call.perform warehouse with
  | .ok (_, changed) => changed
  | .error _ => warehouse

theorem replying_eq_ok_iff
    (answer : α → Reply)
    (outcome : Outcome α)
    (reply : Reply)
    (changed : Warehouse) :
    replying answer outcome = .ok (reply, changed) ↔
      ∃ value, outcome = .ok (value, changed) ∧ answer value = reply := by
  unfold replying
  cases outcome with
  | error error => simp [Except.map]
  | ok result =>
      obtain ⟨value, after⟩ := result
      rw [Except.map, Except.ok.injEq, Prod.mk.injEq]
      constructor
      · rintro ⟨answered, rfl⟩
        exact ⟨value, rfl, answered⟩
      · rintro ⟨_, ⟨⟩, answered⟩
        exact ⟨answered, rfl⟩

theorem exists_of_replying_eq_ok
    {answer : α → Reply}
    {outcome : Outcome α}
    {reply : Reply}
    {changed : Warehouse}
    (succeeds : replying answer outcome = .ok (reply, changed)) :
    ∃ value, outcome = .ok (value, changed) := by
  obtain ⟨value, result, _⟩ := (replying_eq_ok_iff ..).mp succeeds
  exact ⟨value, result⟩

/-- An attempt at one operation ends with its outcome. -/
theorem perform_replying
    (answer : α → Reply)
    (operation : Warehouse → Outcome α)
    (warehouse : Warehouse) :
    Attempt.perform (fun tables => replying answer (operation tables)) warehouse =
      { Attempt.perform operation warehouse with
        result := (Attempt.perform operation warehouse).result.map answer } := by
  simp only [Attempt.perform, replying]
  cases operation warehouse <;> rfl

/-- An open warehouse performs the call as a single operation. -/
theorem change_toChange (location : Location) (call : Call) (warehouse : Warehouse) :
    change location call.toChange warehouse = Attempt.perform call.perform warehouse := by
  cases call with
  | createSeries name columns => exact (perform_replying _ _ _).symm
  | removeEntry name => exact (perform_replying _ _ _).symm
  | attachTag entry tag => exact (perform_replying _ _ _).symm
  | ingest entry column samples => exact (perform_replying _ _ _).symm

end Call

/-! ## What the operations check -/

theorem checkName_eq_ok_iff (what name : String) :
    checkName what name = .ok () ↔ Text.isAllBlank name = false := by
  unfold checkName
  cases Text.isAllBlank name <;> simp

theorem forM_checkName_eq_ok_iff (what : String) (names : List String) :
    (names.forM (checkName what) : Except WarehouseError Unit) = .ok () ↔
      ∀ name ∈ names, Text.isAllBlank name = false := by
  induction names with
  | nil => simp [pure, Except.pure]
  | cons name names inductionHypothesis =>
      simp only [List.forM]
      cases blank : Text.isAllBlank name with
      | true => simp [checkName, blank, bind, Except.bind]
      | false => simpa [checkName, blank, bind, Except.bind] using inductionHypothesis

/-- A series needs a name, at least one column, names for all columns, and must not have the
name of a tag. -/
theorem checkSeries_eq_ok_iff
    (warehouse : Warehouse)
    (name : String)
    (columns : List String) :
    warehouse.checkSeries name columns = .ok () ↔
      Text.isAllBlank name = false ∧ columns ≠ [] ∧
        (∀ column ∈ columns, Text.isAllBlank column = false) ∧
        warehouse.kind? name ≠ some .tag := by
  rw [← checkName_eq_ok_iff "series name" name,
    ← forM_checkName_eq_ok_iff "column name" columns]
  unfold checkSeries
  cases checkName "series name" name with
  | error error => simp [bind, Except.bind]
  | ok _ =>
      by_cases isTag : warehouse.kind? name = some .tag <;>
        cases columns.forM (checkName "column name") <;>
        by_cases empty : columns = [] <;>
        simp [bind, Except.bind, throw, throwThe, MonadExceptOf.throw, pure, Except.pure,
          empty, isTag]

/-- A tag needs a name that no series has, and is attached to an existing entry only. -/
theorem checkAttachment_eq_ok_iff
    (warehouse : Warehouse)
    (entry tag : String) :
    warehouse.checkAttachment entry tag = .ok () ↔
      Text.isAllBlank tag = false ∧ warehouse.kind? entry ≠ none ∧
        warehouse.kind? tag ≠ some .series := by
  rw [← checkName_eq_ok_iff "tag" tag]
  unfold checkAttachment
  cases checkName "tag" tag with
  | error error => simp [bind, Except.bind]
  | ok _ =>
      by_cases missing : warehouse.kind? entry = none <;>
        by_cases isSeries : warehouse.kind? tag = some .series <;>
        simp [bind, Except.bind, throw, throwThe, MonadExceptOf.throw, pure, Except.pure,
          missing, isSeries]

theorem checkColumn_eq_ok_iff
    (warehouse : Warehouse)
    (entry column : String) :
    warehouse.checkColumn entry column = .ok () ↔
      warehouse.kind? entry = some .series ∧ warehouse.declares entry column = true := by
  unfold checkColumn
  by_cases series : warehouse.kind? entry = some .series <;>
    by_cases declared : warehouse.declares entry column = true <;>
    simp [series, declared]

theorem checkFinite_eq_ok_iff (entry column : String) (samples : List Sample) :
    checkFinite entry column samples = .ok () ↔
      ∀ sample ∈ samples, sample.value.isFinite = true := by
  unfold checkFinite
  cases found : samples.find? fun sample => !sample.value.isFinite with
  | none => simpa using found
  | some sample =>
      have infinite := List.find?_some found
      have member := List.mem_of_find?_eq_some found
      simp only [reduceCtorEq, false_iff]
      intro finite
      rw [finite sample member] at infinite
      cases infinite

/-! ## Operations that succeed -/

section

variable (warehouse after : Warehouse)

theorem createSeries_eq_ok_iff (name : String) (columns : List String) (answer : Unit) :
    warehouse.createSeries name columns = .ok (answer, after) ↔
      warehouse.checkSeries name columns = .ok () ∧
        after = warehouse.replaceSeries name columns := by
  unfold createSeries
  cases warehouse.checkSeries name columns with
  | error error => simp
  | ok _ => simp [eq_comm]

theorem attachTag_eq_ok_iff (entry tag : String) (isNew : Bool) :
    warehouse.attachTag entry tag = .ok (isNew, after) ↔
      warehouse.checkAttachment entry tag = .ok () ∧
        isNew = !warehouse.attachments.contains ⟨entry, tag⟩ ∧
        after = warehouse.insertAttachment entry tag := by
  unfold attachTag
  cases warehouse.checkAttachment entry tag with
  | error error => simp
  | ok _ => simp [eq_comm]

/-- Attaching a tag answers whether the entry did not carry it. -/
theorem isNew_iff_of_attachTag
    {warehouse after : Warehouse}
    {entry tag : String}
    {isNew : Bool}
    (attached : warehouse.attachTag entry tag = .ok (isNew, after)) :
    isNew = true ↔ ¬warehouse.carries entry tag := by
  obtain ⟨_, rfl, _⟩ := (attachTag_eq_ok_iff ..).mp attached
  rw [carries, ← Std.ExtTreeSet.contains_iff_mem, Bool.not_eq_true', Bool.not_eq_true]

/-- Samples can be added to a value column if they can be kept. -/
theorem ingest_eq_ok_iff
    {entry column : String}
    (series : warehouse.kind? entry = some .series)
    (declared : warehouse.declares entry column = true)
    (samples : List Sample)
    (count : Nat) :
    warehouse.ingest entry column samples = .ok (count, after) ↔
      (∀ sample ∈ samples, sample.value.isFinite = true) ∧
        (∀ sample ∈ samples, sample.timestamp.toUtc?.isSome = true) ∧
        count = samples.length ∧ after = warehouse.insertPoints entry column samples := by
  have known := (warehouse.checkColumn_eq_ok_iff entry column).mpr ⟨series, declared⟩
  unfold ingest
  cases samples with
  | nil =>
      rw [if_pos List.isEmpty_nil, Except.ok.injEq, Prod.mk.injEq]
      constructor
      · rintro ⟨rfl, rfl⟩
        exact ⟨List.forall_mem_nil _, List.forall_mem_nil _, rfl, rfl⟩
      · rintro ⟨_, _, rfl, rfl⟩
        exact ⟨rfl, rfl⟩
  | cons sample samples =>
      simp only [List.isEmpty_cons, Bool.false_eq_true, if_false, known]
      rw [← checkFinite_eq_ok_iff entry column, ← List.all_eq_true]
      cases checkFinite entry column (sample :: samples) with
      | error error => simp
      | ok _ =>
          cases (sample :: samples).all fun sample => sample.timestamp.toUtc?.isSome with
          | false => simp
          | true => simp [eq_comm]

end

/-! ## What a successful call does -/

/-- A call that succeeds, with what has been checked and what becomes of the tables. -/
inductive Step (warehouse : Warehouse) : Call → Warehouse → Prop
  /-- The series is created or replaced. -/
  | created
      (name : String)
      (columns : List String)
      (nonempty : columns ≠ [])
      (notTag : warehouse.kind? name ≠ some .tag) :
      Step warehouse (.createSeries name columns) (warehouse.replaceSeries name columns)
  /-- There is nothing to remove. -/
  | missed
      (name : String)
      (missing : warehouse.kind? name = none) :
      Step warehouse (.removeEntry name) warehouse
  /-- The entry is removed. -/
  | removed
      (name : String)
      (found : warehouse.kind? name ≠ none) :
      Step warehouse (.removeEntry name) (warehouse.deleteEntry name)
  /-- The tag is attached. -/
  | attached
      (entry tag : String)
      (found : warehouse.kind? entry ≠ none)
      (notSeries : warehouse.kind? tag ≠ some .series) :
      Step warehouse (.attachTag entry tag) (warehouse.insertAttachment entry tag)
  /-- There is nothing to add; the column need not exist. -/
  | idled
      (entry column : String) :
      Step warehouse (.ingest entry column []) warehouse
  /-- The samples are added. -/
  | ingested
      (entry column : String)
      (samples : List Sample)
      (finite : ∀ sample ∈ samples, sample.value.isFinite = true)
      (series : warehouse.kind? entry = some .series)
      (declared : warehouse.declares entry column = true) :
      Step warehouse (.ingest entry column samples)
        (warehouse.insertPoints entry column samples)

theorem Step.of_createSeries
    {warehouse changed : Warehouse}
    {name : String}
    {columns : List String}
    (succeeds : warehouse.createSeries name columns = .ok ((), changed)) :
    Step warehouse (.createSeries name columns) changed := by
  obtain ⟨checked, rfl⟩ := (createSeries_eq_ok_iff ..).mp succeeds
  obtain ⟨_, nonempty, _, notTag⟩ := (warehouse.checkSeries_eq_ok_iff _ _).mp checked
  exact .created name columns nonempty notTag

theorem Step.of_removeEntry
    {warehouse changed : Warehouse}
    {name : String}
    {found : Bool}
    (succeeds : warehouse.removeEntry name = .ok (found, changed)) :
    Step warehouse (.removeEntry name) changed := by
  unfold removeEntry at succeeds
  cases kind : warehouse.kind? name with
  | none =>
      rw [kind] at succeeds
      cases succeeds
      exact .missed name kind
  | some known =>
      rw [kind] at succeeds
      cases succeeds
      exact .removed name (by simp [kind])

theorem Step.of_attachTag
    {warehouse changed : Warehouse}
    {entry tag : String}
    {isNew : Bool}
    (succeeds : warehouse.attachTag entry tag = .ok (isNew, changed)) :
    Step warehouse (.attachTag entry tag) changed := by
  obtain ⟨checked, _, rfl⟩ := (attachTag_eq_ok_iff ..).mp succeeds
  obtain ⟨_, found, notSeries⟩ := (warehouse.checkAttachment_eq_ok_iff _ _).mp checked
  exact .attached entry tag found notSeries

theorem Step.of_ingest
    {warehouse changed : Warehouse}
    {entry column : String}
    {samples : List Sample}
    {count : Nat}
    (succeeds : warehouse.ingest entry column samples = .ok (count, changed)) :
    Step warehouse (.ingest entry column samples) changed := by
  unfold ingest at succeeds
  cases samples with
  | nil =>
      cases succeeds
      exact .idled entry column
  | cons sample samples =>
      cases finite : checkFinite entry column (sample :: samples) with
      | error error => simp [finite] at succeeds
      | ok _ =>
          cases known : warehouse.checkColumn entry column with
          | error error => simp [finite, known] at succeeds
          | ok _ =>
              simp only [finite, known, List.isEmpty_cons, Bool.false_eq_true, if_false]
                at succeeds
              split at succeeds
              · cases succeeds
                obtain ⟨series, declared⟩ := (warehouse.checkColumn_eq_ok_iff _ _).mp known
                exact .ingested entry column _ ((checkFinite_eq_ok_iff _ _ _).mp finite)
                  series declared
              · cases succeeds

/-- A call that succeeds takes one of the steps. -/
theorem Step.of_perform
    {warehouse changed : Warehouse}
    {call : Call}
    {reply : Reply}
    (succeeds : call.perform warehouse = .ok (reply, changed)) :
    Step warehouse call changed := by
  cases call with
  | createSeries name columns =>
      rw [Call.perform] at succeeds
      obtain ⟨_, result⟩ := Call.exists_of_replying_eq_ok succeeds
      exact .of_createSeries result
  | removeEntry name =>
      obtain ⟨_, result⟩ := Call.exists_of_replying_eq_ok succeeds
      exact .of_removeEntry result
  | attachTag entry tag =>
      obtain ⟨_, result⟩ := Call.exists_of_replying_eq_ok succeeds
      exact .of_attachTag result
  | ingest entry column samples =>
      obtain ⟨_, result⟩ := Call.exists_of_replying_eq_ok succeeds
      exact .of_ingest result

/-! ## Histories -/

/-- The tables after a history. -/
def afterAll (calls : List Call) (warehouse : Warehouse) : Warehouse :=
  calls.foldl (fun tables call => call.after tables) warehouse

/-- The calls of a history that succeed, in their order. -/
def succeeded : List Call → Warehouse → List Call
  | [], _ => []
  | call :: calls, warehouse =>
      match call.perform warehouse with
      | .ok (_, changed) => call :: succeeded calls changed
      | .error _ => succeeded calls warehouse

@[simp] theorem afterAll_nil (warehouse : Warehouse) : afterAll [] warehouse = warehouse := rfl

@[simp] theorem afterAll_cons (call : Call) (calls : List Call) (warehouse : Warehouse) :
    afterAll (call :: calls) warehouse = afterAll calls (call.after warehouse) := rfl

theorem afterAll_append (calls more : List Call) (warehouse : Warehouse) :
    afterAll (calls ++ more) warehouse = afterAll more (afterAll calls warehouse) :=
  List.foldl_append

/-- Every call of the history succeeds. -/
def AllSucceed (calls : List Call) (warehouse : Warehouse) : Prop :=
  ∀ before call later, calls = before ++ call :: later →
    ∃ reply changed, call.perform (afterAll before warehouse) = .ok (reply, changed)

theorem allSucceed_nil (warehouse : Warehouse) : AllSucceed [] warehouse := by
  intro before call later split
  cases before <;> cases split

theorem allSucceed_cons_iff
    (call : Call)
    (calls : List Call)
    (warehouse : Warehouse) :
    AllSucceed (call :: calls) warehouse ↔
      (∃ reply changed, call.perform warehouse = .ok (reply, changed)) ∧
        AllSucceed calls (call.after warehouse) := by
  constructor
  · intro succeed
    refine ⟨succeed [] call calls rfl, ?_⟩
    rintro before next later rfl
    exact succeed (call :: before) next later rfl
  · rintro ⟨first, succeed⟩ before next later split
    cases before with
    | nil =>
        cases split
        exact first
    | cons other before =>
        cases split
        exact succeed before next later rfl

theorem AllSucceed.left
    {calls more : List Call}
    {warehouse : Warehouse}
    (succeed : AllSucceed (calls ++ more) warehouse) :
    AllSucceed calls warehouse := by
  rintro before call later rfl
  exact succeed before call (later ++ more) (by simp)

theorem AllSucceed.right
    {calls more : List Call}
    {warehouse : Warehouse}
    (succeed : AllSucceed (calls ++ more) warehouse) :
    AllSucceed more (afterAll calls warehouse) := by
  rintro before call later rfl
  rw [← afterAll_append]
  exact succeed (calls ++ before) call later (by simp)

/-- The first of several calls that succeed takes a step, and then the others succeed. -/
theorem AllSucceed.step
    {call : Call}
    {calls : List Call}
    {warehouse : Warehouse}
    (succeed : AllSucceed (call :: calls) warehouse) :
    Step warehouse call (call.after warehouse) ∧ AllSucceed calls (call.after warehouse) := by
  obtain ⟨⟨reply, changed, performed⟩, rest⟩ := (allSucceed_cons_iff ..).mp succeed
  refine ⟨?_, rest⟩
  rw [Call.after, performed]
  exact .of_perform performed

/-- What every step preserves holds after every history. -/
theorem afterAll_induction
    {invariant : Warehouse → Prop}
    (preserved : ∀ warehouse call changed,
      invariant warehouse → Step warehouse call changed → invariant changed)
    (calls : List Call)
    {warehouse : Warehouse}
    (initially : invariant warehouse) :
    invariant (afterAll calls warehouse) := by
  induction calls generalizing warehouse with
  | nil => exact initially
  | cons call calls inductionHypothesis =>
      rw [afterAll_cons]
      apply inductionHypothesis
      unfold Call.after
      split
      · rename_i reply changed succeeds
        exact preserved warehouse call changed initially (.of_perform succeeds)
      · exact initially

/-- What every step preserves when it is added to the calls that have succeeded so far holds
of all calls that succeed in a history and of the tables after it. -/
theorem succeeded_induction
    {motive : List Call → Warehouse → Prop}
    (preserved : ∀ done warehouse call changed,
      motive done warehouse → Step warehouse call changed →
        motive (done ++ [call]) changed)
    (calls : List Call)
    {done : List Call}
    {warehouse : Warehouse}
    (initially : motive done warehouse) :
    motive (done ++ succeeded calls warehouse) (afterAll calls warehouse) := by
  induction calls generalizing done warehouse with
  | nil => simpa [succeeded] using initially
  | cons call calls inductionHypothesis =>
      rw [afterAll_cons]
      cases outcome : call.perform warehouse with
      | error error =>
          simp only [succeeded, Call.after, outcome]
          exact inductionHypothesis initially
      | ok result =>
          obtain ⟨reply, changed⟩ := result
          have extended := preserved done warehouse call changed initially (.of_perform outcome)
          have rest := inductionHypothesis extended
          simp only [succeeded, Call.after, outcome]
          simpa using rest

/-- A warehouse that is opened for the first time is empty. -/
theorem migrate_empty_eq_blank :
    empty.migrate = blank (Migration.all.map (·.version)) := rfl

end Warehouse
end CompositeIndex
