import CompositeIndex.Index.Computation
import CompositeIndex.Proofs.Store.Interchange

/-!
# What computing an index asks and answers

`IsComputation` says, without following the recursion, which queries a computation makes and
what it answers. There are four cases: no constituents, a constituent that is no product, a
constituent whose value cannot be had, and a sum. Every computation is of one of them, and a
list of constituents allows no other computation than the one that is made.

A sum rests on a finite point inside the window for every constituent, whether the store is
kept in memory or in a warehouse.
-/

namespace CompositeIndex

/-! ## The latest value of an instrument -/

/-- What asking for the latest value of an instrument means for a computation. -/
inductive IsLatestValue
    (reader : Reader)
    (window : Window)
    (instrument : String) : Except Failure Float → Prop
  /-- The store cannot answer. -/
  | refused
      (error : StoreError)
      (answer : reader.lastValue ⟨instrument, valueColumn, window⟩ = .error error) :
      IsLatestValue reader window instrument (.error (.ofStore error))
  /-- There is no point in the window. -/
  | missing
      (answer : reader.lastValue ⟨instrument, valueColumn, window⟩ = .ok none) :
      IsLatestValue reader window instrument
        (.error (.noData instrument window.startText window.finishText))
  /-- The last point of the window has no finite value. -/
  | infinite
      (value : Float)
      (answer : reader.lastValue ⟨instrument, valueColumn, window⟩ = .ok (some value))
      (notFinite : value.isFinite = false) :
      IsLatestValue reader window instrument (.error (.invalid (.notFinite valueColumn)))
  /-- There is a value. -/
  | found
      (value : Float)
      (answer : reader.lastValue ⟨instrument, valueColumn, window⟩ = .ok (some value))
      (finite : value.isFinite = true) :
      IsLatestValue reader window instrument (.ok value)

section

variable {reader : Reader} {window : Window} {instrument : String}

theorem latestValue_eq_of_isLatestValue
    {result : Except Failure Float}
    (isLatest : IsLatestValue reader window instrument result) :
    latestValue reader instrument window = result := by
  unfold latestValue Reading.value Reading.take
  cases isLatest with
  | refused error answer => simp [answer]
  | missing answer => simp [answer]
  | infinite value answer notFinite => simp [answer, notFinite]
  | found value answer finite => simp [answer, finite]

theorem exists_isLatestValue
    (reader : Reader)
    (window : Window)
    (instrument : String) :
    ∃ result, IsLatestValue reader window instrument result := by
  cases answer : reader.lastValue ⟨instrument, valueColumn, window⟩ with
  | error error => exact ⟨_, .refused error answer⟩
  | ok found =>
      cases found with
      | none => exact ⟨_, .missing answer⟩
      | some value =>
          cases finite : value.isFinite with
          | true => exact ⟨_, .found value answer finite⟩
          | false => exact ⟨_, .infinite value answer finite⟩

end

/-! ## Taking readings -/

section

variable {reader : Reader} {window : Window}

/-- The values of the constituents are the latest ones. -/
def AreLatest
    (reader : Reader)
    (window : Window)
    (found : List ConstituentValue) : Prop :=
  ∀ constituent ∈ found,
    IsLatestValue reader window constituent.instrument (.ok constituent.value)

/-- Readings with values are taken on to what comes next. -/
theorem takeReadings_append
    {found : List ConstituentValue}
    (areLatest : AreLatest reader window found)
    (more : List String) :
    takeReadings reader window (found.map ConstituentValue.instrument ++ more) =
      (found.map ConstituentValue.instrument).map (Reading.take reader window) ++
        takeReadings reader window more := by
  induction found with
  | nil => rfl
  | cons constituent found inductionHypothesis =>
      have first : (Reading.take reader window constituent.instrument).value =
          .ok constituent.value :=
        latestValue_eq_of_isLatestValue (areLatest constituent List.mem_cons_self)
      have rest := inductionHypothesis fun other member =>
        areLatest other (List.mem_cons_of_mem _ member)
      simp only [List.map_cons, List.cons_append, takeReadings, first, rest]

/-- Readings with values hand these values on. -/
theorem constituentValues_append
    {found : List ConstituentValue}
    (areLatest : AreLatest reader window found)
    (more : List Reading) :
    Aggregator.constituentValues
        ((found.map ConstituentValue.instrument).map (Reading.take reader window) ++ more) =
      (Aggregator.constituentValues more).map (found ++ ·) := by
  induction found with
  | nil =>
      change Aggregator.constituentValues more = _
      cases Aggregator.constituentValues more <;> rfl
  | cons constituent found inductionHypothesis =>
      have first : (Reading.take reader window constituent.instrument).value =
          .ok constituent.value :=
        latestValue_eq_of_isLatestValue (areLatest constituent List.mem_cons_self)
      have rest := inductionHypothesis fun other member =>
        areLatest other (List.mem_cons_of_mem _ member)
      unfold Aggregator.constituentValues at rest ⊢
      simp only [List.map_cons, List.cons_append, List.mapM_cons, first, rest]
      cases (more.mapM fun reading => reading.value.map fun value =>
        ConstituentValue.mk reading.query.entry value) <;> rfl

/-- Either all constituents have values, or one is the first that has none. -/
theorem exists_found
    (reader : Reader)
    (window : Window)
    (constituents : List String) :
    (∃ found, AreLatest reader window found ∧ constituents = found.map ConstituentValue.instrument) ∨
    ∃ found failing after failure, AreLatest reader window found ∧
      constituents = found.map ConstituentValue.instrument ++ failing :: after ∧
      IsLatestValue reader window failing (.error failure) := by
  induction constituents with
  | nil => exact .inl ⟨[], by simp [AreLatest], rfl⟩
  | cons instrument constituents inductionHypothesis =>
      obtain ⟨result, isLatest⟩ := exists_isLatestValue reader window instrument
      cases result with
      | error failure =>
          exact .inr ⟨[], instrument, constituents, failure, by simp [AreLatest], rfl, isLatest⟩
      | ok value =>
          have extend : ∀ {found}, AreLatest reader window found →
              AreLatest reader window (⟨instrument, value⟩ :: found) := by
            intro found areLatest constituent member
            rcases List.mem_cons.mp member with rfl | member
            · exact isLatest
            · exact areLatest constituent member
          rcases inductionHypothesis with
            ⟨found, areLatest, rfl⟩ | ⟨found, failing, after, failure, areLatest, rfl, fails⟩
          · exact .inl ⟨_, extend areLatest, rfl⟩
          · exact .inr ⟨_, failing, after, failure, extend areLatest, rfl, fails⟩

end

/-! ## Computations -/

/-- What computing an index from a list of constituents asks and answers. -/
inductive IsComputation
    (divisors : Divisors)
    (catalog : Catalog)
    (reader : Reader)
    (index : String)
    (window : Window)
    (reportEach : Bool) : List String → Computation → Prop
  /-- There is nothing to compute the index from. -/
  | noConstituents :
      IsComputation divisors catalog reader index window reportEach []
        ⟨[], .error (.noConstituents index)⟩
  /-- A constituent is no product, and it is the first such one. Nothing is asked for. -/
  | unknownInstrument
      (before : List String)
      (unknown : String)
      (after : List String)
      (products : ∀ instrument ∈ before, instrument ∈ catalog.products)
      (noProduct : unknown ∉ catalog.products) :
      IsComputation divisors catalog reader index window reportEach
        (before ++ unknown :: after)
        ⟨[], .error (.unknownInstrument index unknown)⟩
  /-- A constituent has no value, and it is the first such one. It is the last to be asked
  for. -/
  | failed
      (found : List ConstituentValue)
      (failing : String)
      (after : List String)
      (failure : Failure)
      (products : ∀ instrument ∈ found.map ConstituentValue.instrument ++ failing :: after,
        instrument ∈ catalog.products)
      (values : AreLatest reader window found)
      (fails : IsLatestValue reader window failing (.error failure)) :
      IsComputation divisors catalog reader index window reportEach
        (found.map ConstituentValue.instrument ++ failing :: after)
        ⟨(found.map ConstituentValue.instrument ++ [failing]).map (Reading.take reader window),
          .error failure⟩
  /-- All constituents have values. -/
  | computed
      (found : List ConstituentValue)
      (nonempty : found ≠ [])
      (products : ∀ instrument ∈ found.map ConstituentValue.instrument, instrument ∈ catalog.products)
      (values : AreLatest reader window found)
      (sum : Float)
      (isSum : sum = (found.map ConstituentValue.value).foldl (fun sum value => sum + value) 0) :
      IsComputation divisors catalog reader index window reportEach
        (found.map ConstituentValue.instrument)
        ⟨(found.map ConstituentValue.instrument).map (Reading.take reader window),
          .ok
            { index, window, sum
              divisor := divisors.forIndex index
              value := sum / divisors.forIndex index
              constituents := if reportEach then found else [] }⟩

namespace IsComputation

variable {divisors : Divisors} {catalog : Catalog} {reader : Reader}
variable {index : String} {window : Window} {reportEach : Bool} {constituents : List String}

theorem contains_products
    (divisors : Divisors)
    (catalog : Catalog)
    (instrument : String) :
    (Aggregator.new divisors catalog).products.contains instrument =
      decide (instrument ∈ catalog.products) := by
  rw [Bool.eq_iff_iff]
  simp [Aggregator.new, Std.ExtTreeSet.contains_ofList]

/-- All constituents are products exactly if none is found that is not. -/
theorem find?_eq_none_iff :
    (constituents.find? fun instrument =>
        !(Aggregator.new divisors catalog).products.contains instrument) = none ↔
      ∀ instrument ∈ constituents, instrument ∈ catalog.products := by
  rw [List.find?_eq_none]
  simp only [contains_products, Bool.not_eq_true', Bool.not_eq_false, decide_eq_true_eq]

/-- If all constituents are products, the readings decide. -/
theorem compute_of_products
    (nonempty : constituents ≠ [])
    (products : ∀ instrument ∈ constituents, instrument ∈ catalog.products) :
    (Aggregator.new divisors catalog).compute reader index constituents window reportEach =
      ⟨takeReadings reader window constituents,
        (Aggregator.constituentValues (takeReadings reader window constituents)).map
          ((Aggregator.new divisors catalog).assemble index window reportEach)⟩ := by
  unfold Aggregator.compute
  rw [if_neg (by simpa using nonempty), find?_eq_none_iff.mpr products]

/-- A computation that fits the constituents is the one that is made. -/
theorem compute_eq
    {computation : Computation}
    (isComputation :
      IsComputation divisors catalog reader index window reportEach constituents
        computation) :
    (Aggregator.new divisors catalog).compute reader index constituents window reportEach =
      computation := by
  cases isComputation with
  | noConstituents => rfl
  | unknownInstrument before unknown after products noProduct =>
      have notContained : (Aggregator.new divisors catalog).products.contains unknown =
          false := by
        rw [contains_products, decide_eq_false noProduct]
      have found : ((before ++ unknown :: after).find? fun instrument =>
          !(Aggregator.new divisors catalog).products.contains instrument) =
            some unknown := by
        rw [List.find?_append, find?_eq_none_iff.mpr products, Option.none_or,
          List.find?_cons_of_pos (by simp [notContained])]
      unfold Aggregator.compute
      rw [if_neg (by simp), found]
  | failed found failing after failure products values fails =>
      have last : (Reading.take reader window failing).value = .error failure :=
        latestValue_eq_of_isLatestValue fails
      have taken : takeReadings reader window (failing :: after) =
          [Reading.take reader window failing] := by
        simp only [takeReadings, last]
      have notSummed : Aggregator.constituentValues [Reading.take reader window failing] =
          .error failure := by
        simp [Aggregator.constituentValues, last, Except.map, bind, Except.bind]
      rw [compute_of_products (by simp) products, takeReadings_append values, taken,
        constituentValues_append values, notSummed, List.map_append]
      rfl
  | computed found nonempty products values sum isSum =>
      have taken := takeReadings_append values []
      have summed := constituentValues_append values []
      rw [takeReadings, List.append_nil] at taken
      rw [List.append_nil] at taken summed
      rw [compute_of_products (by simpa using nonempty) products, taken, summed, isSum]
      simp [Aggregator.constituentValues, Aggregator.assemble, Aggregator.total,
        Aggregator.new, Except.map, pure, Except.pure]

/-- There is a computation for every list of constituents. -/
theorem exists_of_constituents
    (divisors : Divisors)
    (catalog : Catalog)
    (reader : Reader)
    (index : String)
    (window : Window)
    (reportEach : Bool)
    (constituents : List String) :
    ∃ computation,
      IsComputation divisors catalog reader index window reportEach constituents
        computation := by
  by_cases empty : constituents = []
  · subst empty
    exact ⟨_, .noConstituents⟩
  · by_cases products : ∀ instrument ∈ constituents, instrument ∈ catalog.products
    · rcases exists_found reader window constituents with
        ⟨found, values, rfl⟩ | ⟨found, failing, after, failure, values, rfl, fails⟩
      · exact ⟨_, .computed found (by simpa using empty) products values _ rfl⟩
      · exact ⟨_, .failed found failing after failure products values fails⟩
    · cases unknown : constituents.find? fun instrument =>
          !(Aggregator.new divisors catalog).products.contains instrument with
      | none => exact absurd (find?_eq_none_iff.mp unknown) products
      | some instrument =>
          obtain ⟨noProduct, before, after, rfl, others⟩ :=
            List.find?_eq_some_iff_append.mp unknown
          refine ⟨_, .unknownInstrument before instrument after ?_ ?_⟩
          · intro other member
            simpa only [contains_products, Bool.not_not, decide_eq_true_eq]
              using others other member
          · simpa only [contains_products, Bool.not_eq_true', decide_eq_false_iff_not]
              using noProduct

/-- The computation that is made is the only one that fits the constituents. -/
theorem compute_iff
    (computation : Computation) :
    (Aggregator.new divisors catalog).compute reader index constituents window reportEach =
        computation ↔
      IsComputation divisors catalog reader index window reportEach constituents
        computation := by
  constructor
  · rintro rfl
    obtain ⟨computation, isComputation⟩ := exists_of_constituents divisors catalog reader
      index window reportEach constituents
    rwa [compute_eq isComputation]
  · exact compute_eq

/-- An index is computed only if there is a finite value for every constituent. -/
theorem exists_value_of_ok
    {computation : Computation}
    (isComputation :
      IsComputation divisors catalog reader index window reportEach constituents
        computation)
    {value : IndexValue}
    (ok : computation.result = .ok value)
    {instrument : String}
    (member : instrument ∈ constituents) :
    ∃ latest, reader.lastValue ⟨instrument, valueColumn, window⟩ = .ok (some latest) ∧
      latest.isFinite = true := by
  cases isComputation with
  | noConstituents => cases ok
  | unknownInstrument => cases ok
  | failed => cases ok
  | computed found nonempty products values sum isSum =>
      obtain ⟨constituent, listed, rfl⟩ := List.mem_map.mp member
      cases values constituent listed with
      | found latest answer finite => exact ⟨_, answer, finite⟩

end IsComputation

/-! ## Answers of a store in memory -/

namespace MemoryStore

/-- What a store in memory answers to the question for the last value of a column. -/
inductive IsAnswered (store : MemoryStore) (query : Query) : Answer → Prop
  /-- The store, or the entry, is made to fail. -/
  | refused
      (refuses : ¬store.Serves query.entry) :
      IsAnswered store query
        (.error (.unavailable
          ("in-memory store refused query for " ++ Text.quoted query.entry)))
  /-- There is no such series. -/
  | unknownEntry
      (serves : store.Serves query.entry)
      (absent : query.entry ∉ store.series) :
      IsAnswered store query (.error (.unknownEntry query.entry))
  /-- The series has no such column. -/
  | unknownColumn
      (serves : store.Serves query.entry)
      (present : query.entry ∈ store.series)
      (absent : store.log? query.entry query.column = none) :
      IsAnswered store query (.error (.unknownColumn query.entry query.column))
  /-- No point of the column lies in the window. -/
  | missing
      (serves : store.Serves query.entry)
      (points : List Point)
      (log : store.log? query.entry query.column = some points)
      (outside : ∀ point ∈ points, ¬point.IsWithin query.window.start query.window.finish) :
      IsAnswered store query (.ok none)
  /-- There is a latest value in the window. -/
  | found
      (serves : store.Serves query.entry)
      (points : List Point)
      (log : store.log? query.entry query.column = some points)
      (value : Float)
      (latest : IsLatest query.window.start query.window.finish points value) :
      IsAnswered store query (.ok (some value))

section

variable {store : MemoryStore} {query : Query}

theorem mem_series_of_log?
    {entry column : String}
    {points : List Point}
    (log : store.log? entry column = some points) :
    entry ∈ store.series := by
  obtain ⟨columns, found, _⟩ := Option.bind_eq_some_iff.mp log
  rw [Std.ExtTreeMap.mem_iff_isSome_getElem?, found]
  rfl

theorem lastValue_of_log?
    (serves : store.Serves query.entry)
    {points : List Point}
    (log : store.log? query.entry query.column = some points) :
    store.lastValue query = .ok ((latestPoint query.window points).map (·.value)) := by
  rw [lastValue_of_serves serves, if_pos (mem_series_of_log? log), log]

theorem isAnswered_lastValue
    (store : MemoryStore)
    (query : Query) :
    store.IsAnswered query (store.lastValue query) := by
  by_cases serves : store.Serves query.entry
  · cases log : store.log? query.entry query.column with
    | none =>
        rw [lastValue_of_serves serves, log]
        by_cases present : query.entry ∈ store.series
        · rw [if_pos present]
          exact .unknownColumn serves present log
        · rw [if_neg present]
          exact .unknownEntry serves present
    | some points =>
        have last := lastIn_latestPoint query.window points
        rw [lastValue_of_log? serves log]
        cases found : (latestPoint query.window points).map (·.value) with
        | none =>
            rw [found] at last
            exact .missing serves points log ((lastIn_none_iff ..).mp last)
        | some value =>
            rw [found] at last
            exact .found serves points log value ((lastIn_some_iff_isLatest ..).mp last)
  · rw [lastValue_of_not_serves serves]
    exact .refused serves

theorem lastValue_eq_of_isAnswered
    {answer : Answer}
    (isAnswered : store.IsAnswered query answer) :
    store.lastValue query = answer := by
  cases isAnswered with
  | refused refuses => exact lastValue_of_not_serves refuses
  | unknownEntry serves absent => rw [lastValue_of_serves serves, if_neg absent]
  | unknownColumn serves present absent =>
      rw [lastValue_of_serves serves, if_pos present, absent]
  | missing serves points log outside =>
      have last := (lastIn_none_iff ..).mpr outside
      rw [lastValue_of_log? serves log, last.unique (lastIn_latestPoint query.window points)]
  | found serves points log value latest =>
      have last := (lastIn_some_iff_isLatest ..).mpr latest
      rw [lastValue_of_log? serves log, last.unique (lastIn_latestPoint query.window points)]

theorem lastValue_iff (answer : Answer) :
    store.lastValue query = answer ↔ store.IsAnswered query answer := by
  constructor
  · rintro rfl
    exact store.isAnswered_lastValue query
  · exact lastValue_eq_of_isAnswered

end

end MemoryStore

/-! ## Answers of a warehouse -/

/-- A value that a warehouse answers with is that of a point inside the window. -/
theorem Warehouse.lastIn_of_lastValue
    {warehouse : Warehouse}
    {query : Query}
    {value : Float}
    (answer : warehouse.reader.lastValue query = .ok (some value)) :
    LastIn (warehouse.valueAt? query.entry query.column) query.window.start
      query.window.finish (some value) := by
  have last := warehouse.lastIn_valuesBetween query.entry query.column query.window.start
    query.window.finish
  simp only [reader, lastBetween] at answer
  split at answer
  · cases answer
  · rw [Except.mapError, Except.ok.injEq] at answer
    rwa [answer] at last

/-! ## Main theorem -/

/-- What computing an index asks and answers, whatever the catalog, the divisors, the index,
its constituents and the window are. From a store in memory and from a warehouse alike, an
index is computed only if every constituent has a finite value inside the window. -/
theorem Aggregator.compute_eq_iff
    (divisors : Divisors)
    (catalog : Catalog)
    (index : String)
    (constituents : List String)
    (window : Window)
    (reportEach : Bool) :
    let compute := fun reader =>
      (Aggregator.new divisors catalog).compute reader index constituents window reportEach
    (∀ reader computation, compute reader = computation ↔
      IsComputation divisors catalog reader index window reportEach constituents
        computation) ∧
    (∀ store : MemoryStore, ∀ query answer,
      store.reader.lastValue query = answer ↔ store.IsAnswered query answer) ∧
    (∀ store : MemoryStore, ∀ value, (compute store.reader).result = .ok value →
      ∀ instrument ∈ constituents, ∃ points latest,
        store.log? instrument valueColumn = some points ∧
          IsLatest window.start window.finish points latest ∧ latest.isFinite = true) ∧
    (∀ warehouse : Warehouse, ∀ value, (compute warehouse.reader).result = .ok value →
      ∀ instrument ∈ constituents, ∃ micro latest,
        window.containsMicro micro = true ∧
          warehouse.valueAt? instrument valueColumn micro = some latest ∧
          latest.isFinite = true) := by
  intro compute
  refine ⟨?computations, ?answers, ?memory, ?tables⟩
  case computations =>
    intro reader computation
    exact IsComputation.compute_iff computation
  case answers =>
    intro store query answer
    exact MemoryStore.lastValue_iff answer
  case memory =>
    intro store value ok instrument member
    have isComputation := (IsComputation.compute_iff _).mp (Eq.refl (compute store.reader))
    obtain ⟨latest, answer, finite⟩ := isComputation.exists_value_of_ok ok member
    have isAnswered := (MemoryStore.lastValue_iff _).mp answer
    cases isAnswered with
    | found serves points log _ isLatest => exact ⟨points, latest, log, isLatest, finite⟩
  case tables =>
    intro warehouse value ok instrument member
    have isComputation :=
      (IsComputation.compute_iff _).mp (Eq.refl (compute warehouse.reader))
    obtain ⟨latest, answer, finite⟩ := isComputation.exists_value_of_ok ok member
    cases Warehouse.lastIn_of_lastValue answer with
    | found micro _ lower upper held newest =>
        exact ⟨micro, latest, by simp [Window.containsMicro, lower, upper], held, finite⟩

end CompositeIndex
