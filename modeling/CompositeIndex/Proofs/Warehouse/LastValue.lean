import CompositeIndex.Proofs.Store.Latest
import CompositeIndex.Proofs.Warehouse.History

/-!
# The last value of a column

The table of points is a map from microseconds to values for each column, and a question for
the last value is answered from this map. What the map holds is what the successful calls of
a history have put there since the series was created: its `Life`.
-/

namespace CompositeIndex
namespace Warehouse

/-! ## Asking the table of points -/

/-- Of two points of one column, the smaller one has the smaller microsecond. -/
theorem micro_lt_of_compare
    {first second : PointKey}
    {entry column : String}
    (firstIn : first.isIn entry column = true)
    (secondIn : second.isIn entry column = true)
    (smaller : compare first second = .lt) :
    first.micro < second.micro := by
  simp only [PointKey.isIn, Bool.and_eq_true, beq_iff_eq] at firstIn secondIn
  change (compare first.entry second.entry).then
    ((compare first.column second.column).then (compare first.micro second.micro)) = .lt
    at smaller
  rw [firstIn.1, secondIn.1, firstIn.2, secondIn.2, Std.compare_self, Std.compare_self]
    at smaller
  exact Std.compare_eq_lt.mp smaller

/-- The points of a column from `start` up to `finish`, in order of time. -/
def pointsBetween
    (warehouse : Warehouse)
    (entry column : String)
    (start finish : Int) : List (PointKey × Float) :=
  warehouse.points.toList.filter fun point =>
    point.1.isIn entry column && start ≤ point.1.micro && point.1.micro < finish

section

variable (warehouse : Warehouse) (entry column : String) (start finish : Int)

theorem valuesBetween_eq_map :
    warehouse.valuesBetween entry column start finish =
      (warehouse.pointsBetween entry column start finish).map (·.2) := rfl

theorem mem_pointsBetween_iff (key : PointKey) (value : Float) :
    (key, value) ∈ warehouse.pointsBetween entry column start finish ↔
      key = ⟨entry, column, key.micro⟩ ∧ start ≤ key.micro ∧ key.micro < finish ∧
        warehouse.valueAt? entry column key.micro = some value := by
  obtain ⟨keyEntry, keyColumn, micro⟩ := key
  simp only [pointsBetween, List.mem_filter, Std.ExtTreeMap.mem_toList_iff_getElem?_eq_some,
    PointKey.isIn, Bool.and_eq_true, beq_iff_eq, decide_eq_true_eq, PointKey.mk.injEq, valueAt?]
  constructor
  · rintro ⟨stored, ⟨⟨rfl, rfl⟩, lower⟩, upper⟩
    exact ⟨⟨rfl, rfl, trivial⟩, lower, upper, stored⟩
  · rintro ⟨⟨rfl, rfl, _⟩, lower, upper, stored⟩
    exact ⟨stored, ⟨⟨rfl, rfl⟩, lower⟩, upper⟩

theorem mem_pointsBetween
    {micro : Int}
    {value : Float}
    (lower : start ≤ micro)
    (upper : micro < finish)
    (held : warehouse.valueAt? entry column micro = some value) :
    ((⟨entry, column, micro⟩ : PointKey), value) ∈
      warehouse.pointsBetween entry column start finish :=
  (warehouse.mem_pointsBetween_iff ..).mpr ⟨rfl, lower, upper, held⟩

theorem pairwise_pointsBetween :
    (warehouse.pointsBetween entry column start finish).Pairwise fun first second =>
      first.1.micro < second.1.micro := by
  have ordered : (warehouse.pointsBetween entry column start finish).Pairwise
      fun first second => compare first.1 second.1 = .lt :=
    Std.ExtTreeMap.ordered_keys_toList.filter _
  refine ordered.imp_of_mem ?_
  rintro first second firstListed secondListed smaller
  have firstIn := (List.mem_filter.mp firstListed).2
  have secondIn := (List.mem_filter.mp secondListed).2
  simp only [Bool.and_eq_true] at firstIn secondIn
  exact micro_lt_of_compare firstIn.1.1 secondIn.1.1 smaller

/-- The last of the values in order of time is the last value of the column. -/
theorem lastIn_valuesBetween :
    LastIn (warehouse.valueAt? entry column) start finish
      (warehouse.valuesBetween entry column start finish).getLast? := by
  rw [valuesBetween_eq_map, List.getLast?_map]
  cases last : (warehouse.pointsBetween entry column start finish).getLast? with
  | none =>
      have empty := List.getLast?_eq_none_iff.mp last
      refine .missing fun micro lower upper => ?_
      cases held : warehouse.valueAt? entry column micro with
      | none => rfl
      | some value =>
          have member := warehouse.mem_pointsBetween entry column start finish lower upper held
          rw [empty] at member
          cases member
  | some point =>
      obtain ⟨key, value⟩ := point
      obtain ⟨before, split⟩ := List.getLast?_eq_some_iff.mp last
      have member : (key, value) ∈ warehouse.pointsBetween entry column start finish := by
        simp [split]
      obtain ⟨_, lower, upper, held⟩ := (warehouse.mem_pointsBetween_iff ..).mp member
      refine .found key.micro value lower upper held fun micro above below => ?_
      cases later : warehouse.valueAt? entry column micro with
      | none => rfl
      | some other =>
          have laterMember := warehouse.mem_pointsBetween entry column start finish
            (by omega) below later
          have ordered := warehouse.pairwise_pointsBetween entry column start finish
          rw [split] at laterMember ordered
          rcases List.mem_append.mp laterMember with inFront | isLast
          · have smaller : micro < key.micro :=
              (List.pairwise_append.mp ordered).2.2 _ inFront (key, value) (by simp)
            omega
          · have same := congrArg (·.1.micro) (List.mem_singleton.mp isLast)
            simp only at same
            omega

/-- A column of a series has an answer to every question for its last value. -/
theorem lastBetween_of_declared
    (series : warehouse.kind? entry = some .series)
    (declared : warehouse.declares entry column = true) :
    ∃ answer, warehouse.lastBetween entry column start finish = .ok answer ∧
      LastIn (warehouse.valueAt? entry column) start finish answer := by
  have known := (warehouse.checkColumn_eq_ok_iff entry column).mpr ⟨series, declared⟩
  exact ⟨_, by rw [lastBetween, known], warehouse.lastIn_valuesBetween ..⟩

end

/-! ## Adding a batch -/

/-- The sample as a point of a log. -/
def Sample.point (sample : Sample) : Point :=
  ⟨sample.timestamp.micros, sample.value⟩

/-- A batch puts the value that it records last for a microsecond in place of the value held
before. -/
@[simp] theorem valueAt?_insertPoints
    (warehouse : Warehouse)
    (entry column : String)
    (samples : List Sample)
    (name other : String)
    (micro : Int) :
    (warehouse.insertPoints entry column samples).valueAt? name other micro =
      if entry = name ∧ column = other then
        (recordedAt (samples.map Sample.point) micro).or (warehouse.valueAt? name other micro)
      else warehouse.valueAt? name other micro := by
  induction samples generalizing warehouse with
  | nil => simp
  | cons sample samples inductionHypothesis =>
      rw [insertPoints_cons, inductionHypothesis, valueAt?_insertPoint, List.map_cons,
        recordedAt_cons, Option.or_assoc]
      by_cases sameColumn : entry = name ∧ column = other
      · by_cases sameMicro : sample.timestamp.micros = micro <;>
          simp [sameColumn, sameMicro, Sample.point]
      · have different :
            ¬(entry = name ∧ column = other ∧ sample.timestamp.micros = micro) :=
          fun same => sameColumn ⟨same.1, same.2.1⟩
        rw [if_neg sameColumn, if_neg sameColumn, if_neg different]

/-! ## The life of a series -/

/-- What successful calls have done to a series since they created it. -/
structure Life where
  /-- The columns that the series was created with. -/
  columns : List String
  /-- The samples added to it, each with its column, in the order in which they were added. -/
  samples : List (String × Sample) := []

namespace Life

/-- The log of a column. -/
def points (life : Life) (column : String) : List Point :=
  (life.samples.filter fun added => added.1 == column).map fun added => added.2.point

/-- The life with a batch added to a column. -/
def add (life : Life) (column : String) (samples : List Sample) : Life :=
  { life with samples := life.samples ++ samples.map fun sample => (column, sample) }

@[simp] theorem columns_add (life : Life) (column : String) (samples : List Sample) :
    (life.add column samples).columns = life.columns := rfl

theorem points_add
    (life : Life)
    (column : String)
    (samples : List Sample)
    (other : String) :
    (life.add column samples).points other =
      if column = other then life.points other ++ samples.map Sample.point
      else life.points other := by
  unfold points add
  rw [List.filter_append, List.map_append]
  by_cases same : column = other
  · have kept : ((samples.map fun sample => (column, sample)).filter fun added =>
        added.1 == other) = samples.map fun sample => (column, sample) :=
      List.filter_eq_self.mpr (by simp [same])
    rw [if_pos same, kept, List.map_map]
    rfl
  · have dropped : ((samples.map fun sample => (column, sample)).filter fun added =>
        added.1 == other) = [] :=
      List.filter_eq_nil_iff.mpr (by simp [same])
    rw [if_neg same, dropped, List.map_nil, List.append_nil]

/-- What a successful call makes of the life of an entry. -/
def next (entry : String) (life : Option Life) : Call → Option Life
  | .createSeries name columns => if name = entry then some { columns } else life
  | .removeEntry name => if name = entry then none else life
  | .attachTag _ _ => life
  | .ingest name column samples =>
      if name = entry then life.map fun life => life.add column samples else life

/-- The tables show what the life of an entry says. -/
def IsShown (warehouse : Warehouse) (entry : String) : Option Life → Prop
  | none => warehouse.kind? entry ≠ some .series
  | some life =>
      warehouse.kind? entry = some .series ∧
        (∀ column, warehouse.declares entry column = true ↔ column ∈ life.columns) ∧
        ∀ column micro,
          warehouse.valueAt? entry column micro = recordedAt (life.points column) micro

/-- What a step does to the tables it does to every life. -/
theorem IsShown.step
    {warehouse changed : Warehouse}
    {entry : String}
    {life : Option Life}
    {call : Call}
    (shown : IsShown warehouse entry life)
    (step : Step warehouse call changed) :
    IsShown changed entry (next entry life call) := by
  cases step with
  | created name columns nonempty notTag =>
      by_cases same : name = entry
      · subst same
        simp only [next, if_true]
        refine ⟨by simp, by simp, ?_⟩
        intro column micro
        rw [valueAt?_replaceSeries, if_pos rfl]
        rfl
      · simp only [next, if_neg same]
        cases life with
        | none => simpa [IsShown, same] using shown
        | some life => simpa [IsShown, same] using shown
  | missed name missing =>
      by_cases same : name = entry
      · subst same
        simp [next, IsShown, missing]
      · simpa only [next, if_neg same] using shown
  | removed name found =>
      by_cases same : name = entry
      · subst same
        simp [next, IsShown]
      · have different : entry ≠ name := fun equal => same equal.symm
        simp only [next, if_neg same]
        cases life with
        | none => simpa [IsShown, same] using shown
        | some life => simpa [IsShown, same, different] using shown
  | attached name tag found notSeries =>
      simp only [next]
      cases life with
      | none =>
          simp only [IsShown, kind?_insertAttachment]
          split
          · cases kind : warehouse.kind? tag with
            | none => simp
            | some known => simpa [kind] using notSeries
          · exact shown
      | some life =>
          have different : tag ≠ entry := by
            rintro rfl
            exact notSeries shown.1
          simpa [IsShown, different] using shown
  | idled name column =>
      simp only [next]
      split
      · cases life with
        | none => exact shown
        | some life => simpa [add] using shown
      · exact shown
  | ingested name column samples finite series declared =>
      by_cases same : name = entry
      · subst same
        simp only [next, if_true]
        cases life with
        | none => exact absurd series shown
        | some life =>
            obtain ⟨kind, columns, values⟩ := shown
            refine ⟨by simpa using kind, by simpa using columns, ?_⟩
            intro other micro
            rw [valueAt?_insertPoints, values, points_add]
            by_cases sameColumn : column = other
            · simp [sameColumn, recordedAt_append]
            · simp [sameColumn]
      · simp only [next, if_neg same]
        cases life with
        | none => simpa [IsShown] using shown
        | some life => simpa [IsShown, same] using shown

/-- Every life is shown by the tables after the history that it comes from. -/
theorem IsShown.afterAll
    (calls : List Call)
    {warehouse : Warehouse}
    {entry : String}
    {life : Option Life}
    (shown : IsShown warehouse entry life) :
    IsShown (afterAll calls warehouse) entry
      ((succeeded calls warehouse).foldl (next entry) life) := by
  induction calls generalizing warehouse life with
  | nil => exact shown
  | cons call calls inductionHypothesis =>
      rw [afterAll_cons]
      cases outcome : call.perform warehouse with
      | error error =>
          simp only [succeeded, Call.after, outcome]
          exact inductionHypothesis shown
      | ok result =>
          obtain ⟨reply, changed⟩ := result
          simp only [succeeded, Call.after, outcome, List.foldl_cons]
          exact inductionHypothesis (shown.step (.of_perform outcome))

end Life

/-! ## Answers after a history -/

/-- The timestamp exists in UTC. -/
def InUtc (timestamp : Timestamp) : Prop :=
  timestamp.toUtc?.isSome = true

instance (timestamp : Timestamp) : Decidable (InUtc timestamp) :=
  inferInstanceAs (Decidable (timestamp.toUtc?.isSome = true))

/-- How the question for the last value of a column between two timestamps is answered, given
the life of the entry. -/
structure IsAnswer
    (life : Option Life)
    (entry column : String)
    (start finish : Timestamp)
    (answer : Except WarehouseError (Option Float)) : Prop where
  /-- The entry is unknown exactly if it is no series. -/
  unknownEntry_iff : answer = .error (.unknownEntry entry) ↔ life = none
  /-- The column is unknown exactly if the series was created without it. -/
  unknownColumn_iff : answer = .error (.unknownColumn entry column) ↔
    ∃ known, life = some known ∧ column ∉ known.columns
  /-- A value is that of the latest point within the bounds. -/
  value_iff : ∀ known, life = some known → column ∈ known.columns →
    InUtc start → InUtc finish → ∀ value, answer = .ok (some value) ↔
      IsLatest start.micros finish.micros (known.points column) value
  /-- There is no value exactly if there is no point within the bounds. -/
  none_iff : ∀ known, life = some known → column ∈ known.columns →
    InUtc start → InUtc finish → (answer = .ok none ↔
      ∀ point ∈ known.points column, ¬point.IsWithin start.micros finish.micros)
  /-- The question is refused exactly if a bound of it does not exist in UTC. -/
  outsideCalendar_iff : answer = .error .outsideCalendar ↔
    ∃ known, life = some known ∧ column ∈ known.columns ∧ ¬(InUtc start ∧ InUtc finish)

/-- A question about an entry that is no series. -/
theorem isAnswer_of_none
    {warehouse : Warehouse}
    {entry : String}
    (shown : Life.IsShown warehouse entry none)
    (column : String)
    (start finish : Timestamp) :
    IsAnswer none entry column start finish
      (warehouse.lastValue entry column start finish) := by
  have notSeries : warehouse.kind? entry ≠ some .series := shown
  have answer : warehouse.lastValue entry column start finish =
      .error (.unknownEntry entry) := by
    rw [lastValue, checkColumn, if_pos notSeries]
  rw [answer]
  constructor <;> simp

/-- A question about a column that the series was created without. -/
theorem isAnswer_of_not_mem
    {warehouse : Warehouse}
    {entry : String}
    {life : Life}
    (shown : Life.IsShown warehouse entry (some life))
    {column : String}
    (undeclared : column ∉ life.columns)
    (start finish : Timestamp) :
    IsAnswer (some life) entry column start finish
      (warehouse.lastValue entry column start finish) := by
  have answer : warehouse.lastValue entry column start finish =
      .error (.unknownColumn entry column) := by
    rw [lastValue, checkColumn, if_neg (fun differs => differs shown.1), if_neg]
    exact fun declared => undeclared ((shown.2.1 column).mp declared)
  rw [answer]
  constructor <;> simp [undeclared]

/-- A question about a declared column. -/
theorem isAnswer_of_mem
    {warehouse : Warehouse}
    {entry : String}
    {life : Life}
    (shown : Life.IsShown warehouse entry (some life))
    {column : String}
    (declared : column ∈ life.columns)
    (start finish : Timestamp) :
    IsAnswer (some life) entry column start finish
      (warehouse.lastValue entry column start finish) := by
  obtain ⟨series, columns, values⟩ := shown
  have known := (warehouse.checkColumn_eq_ok_iff entry column).mpr
    ⟨series, (columns column).mpr declared⟩
  have held : warehouse.valueAt? entry column = recordedAt (life.points column) :=
    funext (values column)
  obtain ⟨last, lastBetween, isLast⟩ := warehouse.lastBetween_of_declared entry column
    start.micros finish.micros series ((columns column).mpr declared)
  rw [held] at isLast
  by_cases inUtc : InUtc start ∧ InUtc finish
  · have answer : warehouse.lastValue entry column start finish = .ok last := by
      simp only [lastValue, known]
      rw [if_pos (by simpa [InUtc] using inUtc), lastBetween]
    rw [answer]
    refine ⟨by simp, by simp [declared], ?_, ?_, by simp [inUtc]⟩
    · rintro known sameLife _ _ _ value
      cases sameLife
      rw [← lastIn_some_iff_isLatest]
      constructor
      · intro same
        cases same
        exact isLast
      · intro latest
        rw [isLast.unique latest]
    · rintro known sameLife _ _ _
      cases sameLife
      rw [← lastIn_none_iff]
      constructor
      · intro same
        cases same
        exact isLast
      · intro missing
        rw [isLast.unique missing]
  · have answer : warehouse.lastValue entry column start finish =
        .error .outsideCalendar := by
      simp only [lastValue, known]
      rw [if_neg (by simpa [InUtc] using inUtc)]
    rw [answer]
    refine ⟨by simp, by simp [declared], ?_, ?_, by simp [declared, inUtc]⟩
    · intro known _ _ startInUtc finishInUtc
      exact absurd ⟨startInUtc, finishInUtc⟩ inUtc
    · intro known _ _ startInUtc finishInUtc
      exact absurd ⟨startInUtc, finishInUtc⟩ inUtc

/-- A question is answered from the life that the tables show. -/
theorem Life.IsShown.isAnswer
    {warehouse : Warehouse}
    {entry : String}
    {life : Option Life}
    (shown : Life.IsShown warehouse entry life)
    (column : String)
    (start finish : Timestamp) :
    IsAnswer life entry column start finish
      (warehouse.lastValue entry column start finish) := by
  cases life with
  | none => exact isAnswer_of_none shown column start finish
  | some life =>
      by_cases declared : column ∈ life.columns
      · exact isAnswer_of_mem shown declared start finish
      · exact isAnswer_of_not_mem shown declared start finish

end Warehouse
end CompositeIndex
