import Mathlib.Data.List.Nodup
import CompositeIndex.Proofs.Refresh.Itinerary
import CompositeIndex.Proofs.Refresh.Passes
import CompositeIndex.Proofs.Store.Agreement

/-!
# Indexes that do not disturb each other

If failures are skipped, every pass reports every index of the catalog, and at the same place
whatever the store answers. The report of an index depends on the answers about its own
constituents only: missing, unusable or refused values of other instruments harm nothing but
the indexes that consist of them.
-/

namespace CompositeIndex
namespace Refresh

/-- The pass and the index that a report is about; a report on a whole pass is about no
index. -/
def Report.place (report : Report) : Nat × Option String :=
  (report.pass, report.index?)

/-- The places of all reports of passes over these indexes: in every pass the indexes in their
order, and then the pass itself. -/
def placesOf (indexes : List String) (first count : Nat) : List (Nat × Option String) :=
  (List.range' first count).flatMap fun pass =>
    indexes.map (fun index => (pass, some index)) ++ [(pass, none)]

theorem length_placesOf (indexes : List String) (first count : Nat) :
    (placesOf indexes first count).length = count * (indexes.length + 1) := by
  simp [placesOf, List.length_flatMap]

theorem mem_placesOf
    {indexes : List String}
    {index : String}
    (listed : index ∈ indexes)
    {first count pass : Nat}
    (atLeast : first ≤ pass)
    (below : pass < first + count) :
    (pass, some index) ∈ placesOf indexes first count := by
  rw [placesOf, List.mem_flatMap]
  refine ⟨pass, List.mem_range'_1.mpr ⟨atLeast, below⟩, ?_⟩
  exact List.mem_append_left _ (List.mem_map_of_mem listed)

/-- There are no two reports for one place. -/
theorem nodup_placesOf
    {indexes : List String}
    (distinct : indexes.Nodup)
    (first count : Nat) :
    (placesOf indexes first count).Nodup := by
  have ofPass : ∀ (pass : Nat) (place : Nat × Option String),
      place ∈ indexes.map (fun index => (pass, some index)) ++ [(pass, none)] →
        place.1 = pass := by
    intro pass place member
    rcases List.mem_append.mp member with aboutIndex | aboutPass
    · obtain ⟨index, _, rfl⟩ := List.mem_map.mp aboutIndex
      rfl
    · rw [List.mem_singleton.mp aboutPass]
  rw [placesOf, List.nodup_flatMap]
  constructor
  · intro pass _
    refine List.nodup_append'.mpr ⟨?_, List.nodup_singleton _, by simp⟩
    exact distinct.map fun index other same => Option.some.inj (Prod.mk.inj same).2
  · refine (List.nodup_range' ).imp fun different place ofFirst ofSecond => ?_
    exact different ((ofPass _ place ofFirst).symm.trans (ofPass _ place ofSecond))

/-- A place that occurs once is that of a single report. -/
theorem exists_filter_place
    {reports : List Report}
    (distinct : (reports.map Report.place).Nodup)
    {place : Nat × Option String}
    (member : place ∈ reports.map Report.place) :
    ∃ report, reports.filter (fun report => report.place = place) = [report] := by
  rw [← List.length_eq_one_iff, ← List.countP_eq_length_filter]
  rw [← List.count_eq_one_of_mem distinct member, List.count, List.countP_map]
  exact List.countP_congr fun report _ => by simp

/-- Of the reports on an index, one pass has those at its place. -/
theorem filter_place (reports : List Report) (pass : Nat) (index : String) :
    reports.filter (fun report => report.place = (pass, some index)) =
      (reports.filter fun report => report.index? = some index).filter
        fun report => report.pass = pass := by
  rw [List.filter_filter]
  exact List.filter_congr fun report _ => by simp [Report.place]

namespace Loop

variable {loop : Loop}

/-! ## The places of reports -/

theorem place_reportOf
    (loop : Loop)
    (reader : Reader)
    (pass : Nat)
    (window : Window)
    (plan : Plan) :
    (loop.reportOf reader pass window plan).place = (pass, some plan.index) := by
  unfold reportOf
  cases computed : (loop.aggregator.compute reader plan.index plan.constituents window
      loop.schedule.reportEach).result with
  | ok value =>
      change (pass, some value.index) = (pass, some plan.index)
      rw [index_of_compute computed]
  | error failure => rfl

theorem block_of_skips
    (skips : loop.schedule.policy = .skipIndex)
    (reader : Reader)
    (pass : Nat)
    (window : Window)
    (plans : List Plan) :
    loop.block reader pass window plans = plans.map (loop.reportOf reader pass window) := by
  rw [block, skips]
  rfl

/-- Whatever the store answers, the reports of passes are about these places. -/
theorem map_place_reportsFrom
    (skips : loop.schedule.policy = .skipIndex)
    (reader : Reader)
    (first : Nat)
    (windows : List Window) :
    (loop.reportsFrom reader first windows).map Report.place =
      placesOf (loop.plans.map Plan.index) first windows.length := by
  induction windows generalizing first with
  | nil => rfl
  | cons window windows inductionHypothesis =>
      have places : (loop.turnReports reader first window).map Report.place =
          (loop.plans.map Plan.index).map (fun index => (first, some index)) ++
            [(first, none)] := by
        rw [turnReports, block_of_skips skips, List.map_append, List.map_map, List.map_map]
        congr 1
        exact List.map_congr_left fun plan _ => loop.place_reportOf reader first window plan
      rw [reportsFrom, List.map_append, places, inductionHypothesis, placesOf, placesOf,
        List.length_cons, List.range'_succ, List.flatMap_cons]

/-! ## The reports on one index -/

/-- The reports on an index are the same for stores that agree on its constituents. -/
theorem filter_index?_reportsFrom
    (skips : loop.schedule.policy = .skipIndex)
    {reader other : Reader}
    {index : String}
    (agrees : ∀ plan ∈ loop.plans, plan.index = index →
      reader.AgreesOn other plan.constituents)
    (first : Nat)
    (windows : List Window) :
    (loop.reportsFrom reader first windows).filter (fun report => report.index? = some index) =
      (loop.reportsFrom other first windows).filter
        (fun report => report.index? = some index) := by
  have sameBlock : ∀ pass window,
      (loop.block reader pass window loop.plans).filter
          (fun report => report.index? = some index) =
        (loop.block other pass window loop.plans).filter
          (fun report => report.index? = some index) := by
    intro pass window
    have about : ∀ reader : Reader,
        (fun report : Report => decide (report.index? = some index)) ∘
            loop.reportOf reader pass window =
          fun plan : Plan => decide (plan.index = index) := by
      intro reader
      funext plan
      have named := congrArg Prod.snd (loop.place_reportOf reader pass window plan)
      simp [show (loop.reportOf reader pass window plan).index? = _ from named]
    rw [block_of_skips skips, block_of_skips skips, List.filter_map, List.filter_map,
      about, about]
    refine List.map_congr_left fun plan member => ?_
    obtain ⟨listed, named⟩ := List.mem_filter.mp member
    have agreesOn := agrees plan listed (of_decide_eq_true named)
    rw [reportOf, reportOf, Aggregator.compute_congr_of_agreesOn agreesOn]
  induction windows generalizing first with
  | nil => rfl
  | cons window windows inductionHypothesis =>
      simp only [reportsFrom, turnReports, List.filter_append, sameBlock, inductionHypothesis]
      rfl

/-! ## Two runs -/

variable {host : Host σ} {reader : Reader} {clock : σ → ManualClock} {calm : σ → Prop}
variable {standing : Standing σ}
variable {otherHost : Host τ} {otherReader : Reader} {otherClock : τ → ManualClock}
variable {otherCalm : τ → Prop} {otherStanding : Standing τ}

theorem map_passes_result
    (itinerary : Itinerary)
    (reader : Reader) :
    (itinerary.result (loop.countsAfter reader {} itinerary.windows)).map Summary.passes =
      match itinerary.halt with
      | none => .ok itinerary.windows.length
      | some reason => .error reason := by
  unfold Itinerary.result
  cases itinerary.halt with
  | none => exact congrArg Except.ok (by rw [passes_countsAfter, Nat.zero_add])
  | some reason => rfl

/-- Two runs of one loop set out at the same time, each on an outside that nothing disturbs,
and skip failures. Both report every index of the catalog exactly once in every pass, in the
same order, and come to the same number of passes. An index whose constituents have the same
values in both stores is reported alike in every pass, however the stores differ otherwise. -/
theorem run_reports_alike
    {catalog : Catalog}
    {config : IndexConfig}
    {schedule : Schedule}
    (built : Loop.new catalog config schedule = .ok loop)
    (skips : schedule.policy = .skipIndex)
    (clockwork : host.IsClockwork reader clock calm)
    (otherClockwork : otherHost.IsClockwork otherReader otherClock otherCalm)
    {time : ManualClock}
    (shows : Shows clock calm time standing.world)
    (otherShows : Shows otherClock otherCalm time otherStanding.world) :
    let first := loop.run host standing
    let second := loop.run otherHost otherStanding
    ∃ passes,
      first.trace.reports.map Report.place = placesOf catalog.indexes 1 passes ∧
      second.trace.reports.map Report.place = placesOf catalog.indexes 1 passes ∧
      first.result.map Summary.passes = second.result.map Summary.passes ∧
      ∀ index ∈ catalog.indexes,
        reader.AgreesOn otherReader (config.constituentsFor index catalog) →
        ∀ pass, 1 ≤ pass → pass ≤ passes → ∃ report,
          first.trace.reports.filter (fun report => report.place = (pass, some index)) =
            [report] ∧
          second.trace.reports.filter (fun report => report.place = (pass, some index)) =
            [report] := by
  obtain ⟨_, _, _, plans, rfl⟩ := exists_divisors_of_new built
  have indexes : loop.plans.map Plan.index = catalog.indexes := by
    rw [plans, plansOf, List.map_map]
    exact List.map_id _
  -- no store has a say in the itinerary, so the two runs share it
  have firstEnds : Ends (loop.run host standing) _ _ := ends_run clockwork shows
  have secondEnds : Ends (loop.run otherHost otherStanding) _ _ :=
    ends_run otherClockwork otherShows
  have firstPlaces := map_place_reportsFrom skips reader 1 (loop.runItinerary time).windows
  have secondPlaces :=
    map_place_reportsFrom skips otherReader 1 (loop.runItinerary time).windows
  rw [indexes, ← firstEnds.reports] at firstPlaces
  rw [indexes, ← secondEnds.reports] at secondPlaces
  refine ⟨(loop.runItinerary time).windows.length, firstPlaces, secondPlaces, ?_, ?_⟩
  · rw [firstEnds.result, secondEnds.result, map_passes_result, map_passes_result]
  intro index listed agrees pass atLeast atMost
  have agreesOn : ∀ plan ∈ loop.plans, plan.index = index →
      reader.AgreesOn otherReader plan.constituents := by
    intro plan member named
    rw [plans] at member
    obtain ⟨other, _, rfl⟩ := List.mem_map.mp member
    obtain rfl : other = index := named
    exact agrees
  have sameReports := filter_index?_reportsFrom skips agreesOn 1
    (loop.runItinerary time).windows
  rw [← firstEnds.reports, ← secondEnds.reports] at sameReports
  have ascending : Names.Ascending catalog.indexes := catalog.ascending_group _
  have distinct := nodup_placesOf ascending.nodup 1 (loop.runItinerary time).windows.length
  have member := mem_placesOf listed atLeast (Nat.lt_one_add_iff.mpr atMost)
  rw [← firstPlaces] at distinct member
  obtain ⟨report, reported⟩ := exists_filter_place distinct member
  refine ⟨report, reported, ?_⟩
  rw [← reported, filter_place, filter_place, sameReports]

/-- Two passes over two indexes. One of the stores refuses the only constituent of the second
index, and the reports on the first index are the same in both. -/
theorem run_reports_alike_sample :
    let catalog := Catalog.ofGroups [(Tag.indexes, ["I", "J"]), (Tag.products, ["A", "B"])]
    let config : IndexConfig :=
      { constituents := (∅ : Std.ExtTreeMap String (List String)).insert "I" ["A"] |>.insert
          "J" ["B"] }
    let schedule : Schedule := { maxPasses := some 2 }
    let start : Timestamp := ⟨1772452800000000000, 0, by decide⟩
    let store := (MemoryStore.empty.record "A" valueColumn ⟨start.nanos - 1000, 0, by decide⟩
      1.5).createSeries "B"
    let standing := fun store : MemoryStore =>
      (⟨.idle, { store, clock := .startingAt start }⟩ : Standing (Rehearsal.World MemoryStore))
    let host := Rehearsal.host Rehearsal.Backend.memory {}
    ∃ loop, Loop.new catalog config schedule = .ok loop ∧
      ∃ report,
        (loop.run host (standing store)).trace.reports.filter
          (fun report => report.place = (2, some "I")) = [report] ∧
        (loop.run host (standing (store.failEntry "B"))).trace.reports.filter
          (fun report => report.place = (2, some "I")) = [report] := by
  intro catalog config schedule start store standing host
  have built : Loop.new catalog config schedule =
      .ok ⟨Aggregator.new Divisors.default catalog, plansOf config catalog, schedule⟩ := by
    rfl
  have quiet : ({} : Rehearsal.Script MemoryStore.Change).IsQuiet := ⟨rfl, rfl, rfl⟩
  have clockwork := Rehearsal.isClockwork_of_isQuiet quiet Rehearsal.Backend.memory
  have shows : ∀ store : MemoryStore, Shows Rehearsal.World.clock
      (Rehearsal.World.IsCalm store) (.startingAt start) (standing store).world :=
    fun _ => ⟨⟨rfl, rfl, rfl, rfl⟩, rfl⟩
  obtain ⟨passes, places, _, _, alike⟩ := run_reports_alike built rfl (clockwork store)
    (clockwork (store.failEntry "B")) (shows store) (shows (store.failEntry "B"))
  have length := congrArg List.length places
  rw [List.length_map, length_placesOf] at length
  have reported : (Loop.run ⟨Aggregator.new Divisors.default catalog, plansOf config catalog,
      schedule⟩ host (standing store)).trace.reports.length = 6 := by
    decide +kernel
  have indexes : catalog.indexes.length = 2 := by decide +kernel
  rw [reported, indexes] at length
  have twice : passes = 2 := by omega
  subst twice
  have constituents : config.constituentsFor "I" catalog = ["A"] := by decide +kernel
  have agrees : (Rehearsal.Backend.memory.reader store).AgreesOn
      (Rehearsal.Backend.memory.reader (store.failEntry "B"))
      (config.constituentsFor "I" catalog) := by
    rw [constituents]
    intro instrument listed window
    rw [List.mem_singleton.mp listed]
    simp [Rehearsal.Backend.memory, MemoryStore.reader, MemoryStore.lastValue,
      MemoryStore.failEntry]
  exact ⟨_, built, alike "I" (by decide +kernel) agrees 2 (by decide) (by decide)⟩

end Loop
end Refresh
end CompositeIndex
