import CompositeIndex.Proofs.Seed.Planting
import CompositeIndex.Proofs.Warehouse.Integrity

/-!
# The effect of seeding

Seeding is a sequence of some hundred operations, each of which may fail. It succeeds exactly
if there is a timeline and each of its series can be planted into the tables as they are at the
beginning; then the series are planted, and nothing else is done. What is planted is worked out
from the options alone, so that seeding again with the same options changes nothing.
-/

namespace CompositeIndex

/-! ## Attempts that succeed -/

namespace Attempt

/-- The attempt comes to its end with this answer and leaves these tables. -/
def Succeeds (attempt : Attempt α) (answer : α) (after : Warehouse) : Prop :=
  attempt.result = .ok answer ∧ attempt.warehouse = after

theorem succeeds_perform_iff
    (operation : Warehouse → Warehouse.Outcome α)
    (warehouse : Warehouse)
    (answer : α)
    (after : Warehouse) :
    (perform operation warehouse).Succeeds answer after ↔
      operation warehouse = .ok (answer, after) := by
  unfold perform Succeeds
  cases operation warehouse with
  | error error => simp
  | ok result => simp [Prod.ext_iff]

theorem succeeds_note_iff
    (line : LogLine)
    (answer last : α)
    (warehouse after : Warehouse) :
    (note line answer warehouse).Succeeds last after ↔ last = answer ∧ after = warehouse := by
  simp [note, Succeeds, eq_comm]

theorem succeeds_andThen_iff
    (attempt : Attempt α)
    (next : α → Warehouse → Attempt β)
    (last : β)
    (after : Warehouse) :
    (attempt.andThen next).Succeeds last after ↔
      ∃ answer middle, attempt.Succeeds answer middle ∧
        (next answer middle).Succeeds last after := by
  unfold andThen Succeeds
  cases attempt.result with
  | error error => simp
  | ok answer => simp

end Attempt

namespace Seed

/-! ## One series -/

/-- The value column can be used as a name. -/
theorem isAllBlank_valueColumn : Text.isAllBlank valueColumn = false := by decide

/-- A series is created with its tag exactly if it can be planted without samples. -/
theorem succeeds_createTagged_iff
    {name : String}
    {tag : Tag}
    (plain : IsPlainName name)
    (warehouse after : Warehouse) :
    (createTagged name tag warehouse).Succeeds () after ↔
      warehouse.Admits ⟨name, tag, []⟩ ∧ after = warehouse.plant ⟨name, tag, []⟩ := by
  simp only [createTagged, Attempt.succeeds_andThen_iff, Attempt.succeeds_perform_iff,
    Warehouse.createSeries_eq_ok_iff, Warehouse.attachTag_eq_ok_iff,
    Warehouse.checkSeries_eq_ok_iff, Warehouse.checkAttachment_eq_ok_iff,
    List.forall_mem_singleton, isAllBlank_valueColumn, Tag.isAllBlank_text, plain.named]
  have tagKind : ∀ other : Tag,
      (warehouse.replaceSeries name [valueColumn]).kind? other.text =
        warehouse.kind? other.text := by
    intro other
    rw [Warehouse.kind?_replaceSeries, if_neg (plain.noTag other)]
  constructor
  · rintro ⟨_, _, ⟨⟨_, _, _, isNoTag⟩, rfl⟩, _, _, ⟨⟨_, _, notSeries⟩, _, rfl⟩,
      _, _, ⟨⟨_, _, tagsNotSeries⟩, _, rfl⟩, _, rfl⟩
    rw [tagKind] at notSeries
    rw [Warehouse.kind?_insertAttachment_ne_series_iff, tagKind] at tagsNotSeries
    exact ⟨⟨isNoTag, notSeries, tagsNotSeries, List.forall_mem_nil _, List.forall_mem_nil _⟩,
      rfl⟩
  · rintro ⟨⟨isNoTag, notSeries, tagsNotSeries, _, _⟩, rfl⟩
    refine ⟨(), _, ⟨⟨trivial, List.cons_ne_nil _ _, trivial, isNoTag⟩, rfl⟩,
      _, _, ⟨⟨trivial, ?_, ?_⟩, rfl, rfl⟩, _, _, ⟨⟨trivial, ?_, ?_⟩, rfl, rfl⟩, rfl, rfl⟩
    · simp
    · rwa [tagKind]
    · simp
    · rwa [Warehouse.kind?_insertAttachment_ne_series_iff, tagKind]

theorem succeeds_createIndex_iff
    {name : String}
    (plain : IsPlainName name)
    (warehouse after : Warehouse) :
    (createIndex name warehouse).Succeeds () after ↔
      warehouse.Admits ⟨name, Tag.indexes, []⟩ ∧
        after = warehouse.plant ⟨name, Tag.indexes, []⟩ := by
  simp only [createIndex, Attempt.succeeds_andThen_iff, succeeds_createTagged_iff plain,
    Attempt.succeeds_note_iff]
  constructor
  · rintro ⟨_, _, ⟨admits, rfl⟩, _, rfl⟩
    exact ⟨admits, rfl⟩
  · rintro ⟨admits, rfl⟩
    exact ⟨(), _, ⟨admits, rfl⟩, trivial, rfl⟩

/-- An instrument is filled exactly if its series can be planted with the samples. -/
theorem succeeds_fillProduct_iff
    {name : String}
    {samples : List Warehouse.Sample}
    (plain : IsPlainName name)
    (warehouse after : Warehouse)
    (count : Nat) :
    (fillProduct name samples warehouse).Succeeds count after ↔
      warehouse.Admits ⟨name, Tag.products, samples⟩ ∧ count = samples.length ∧
        after = warehouse.plant ⟨name, Tag.products, samples⟩ := by
  have series : (warehouse.plant ⟨name, Tag.products, []⟩).kind? name = some .series := by
    rw [Warehouse.kind?_plant _ plain, if_pos rfl]
  have declared :
      (warehouse.plant ⟨name, Tag.products, []⟩).declares name valueColumn = true := by
    rw [Warehouse.declares_plant, if_pos rfl]
  simp only [fillProduct, createProduct, Attempt.succeeds_andThen_iff,
    succeeds_createTagged_iff plain, Attempt.succeeds_perform_iff,
    Attempt.succeeds_note_iff]
  constructor
  · rintro ⟨_, _, ⟨admits, rfl⟩, _, _, ingested, rfl, rfl⟩
    rw [Warehouse.ingest_eq_ok_iff _ _ series declared] at ingested
    obtain ⟨finite, inUtc, rfl, rfl⟩ := ingested
    exact ⟨⟨admits.notTag, admits.notSeries, admits.tagsNotSeries, finite, inUtc⟩, rfl, rfl⟩
  · rintro ⟨⟨isNoTag, notSeries, tagsNotSeries, finite, inUtc⟩, rfl, rfl⟩
    refine ⟨(), _, ⟨⟨isNoTag, notSeries, tagsNotSeries, List.forall_mem_nil _,
      List.forall_mem_nil _⟩, rfl⟩, _, _, ?_, rfl, rfl⟩
    exact (Warehouse.ingest_eq_ok_iff _ _ series declared _ _).mpr ⟨finite, inUtc, rfl, rfl⟩

/-! ## All series -/

/-- The series of the instruments, each with the next part of one sequence of random
numbers. -/
def productSeries (timestamps : List Timestamp) : List Instrument → Generator → List Series
  | [], _ => []
  | instrument :: instruments, generator =>
      let drawn := instrumentWalk instrument timestamps generator
      ⟨instrument.name, Tag.products, drawn.1⟩ :: productSeries timestamps instruments drawn.2

/-- The series that seeding plants: the index, which has no samples, and its instruments. -/
def seriesOf (options : Options) (timestamps : List Timestamp) : List Series :=
  ⟨Instrument.dowJonesIndex, Tag.indexes, []⟩ ::
    productSeries timestamps Instrument.dowJones (Generator.ofSeed options.seed)

section

variable (timestamps : List Timestamp)

theorem map_name_productSeries (instruments : List Instrument) (generator : Generator) :
    (productSeries timestamps instruments generator).map Series.name =
      instruments.map Instrument.name := by
  induction instruments generalizing generator with
  | nil => rfl
  | cons instrument instruments inductionHypothesis =>
      exact congrArg (instrument.name :: ·) (inductionHypothesis _)

theorem tag_productSeries (instruments : List Instrument) (generator : Generator) :
    ∀ series ∈ productSeries timestamps instruments generator, series.tag = Tag.products := by
  induction instruments generalizing generator with
  | nil => exact List.forall_mem_nil _
  | cons instrument instruments inductionHypothesis =>
      exact List.forall_mem_cons.mpr ⟨rfl, inductionHypothesis _⟩

theorem isPlainName_productSeries
    {instruments : List Instrument}
    (plain : ∀ instrument ∈ instruments, IsPlainName instrument.name)
    (generator : Generator) :
    ∀ series ∈ productSeries timestamps instruments generator, IsPlainName series.name := by
  intro series member
  have named := List.mem_map_of_mem (f := Series.name) member
  rw [map_name_productSeries] at named
  obtain ⟨instrument, listed, sameName⟩ := List.mem_map.mp named
  rw [← sameName]
  exact plain instrument listed

/-- A walk has a sample for each timestamp, in the same order. -/
theorem map_timestamp_walk
    (amplitude : Float)
    (timestamps : List Timestamp)
    (price : Float)
    (generator : Generator) :
    (walk amplitude timestamps price generator).1.map Warehouse.Sample.timestamp =
      timestamps := by
  induction timestamps generalizing price generator with
  | nil => rfl
  | cons timestamp timestamps inductionHypothesis =>
      simp only [walk, List.map_cons, inductionHypothesis]

theorem length_walk
    (amplitude : Float)
    (timestamps : List Timestamp)
    (price : Float)
    (generator : Generator) :
    (walk amplitude timestamps price generator).1.length = timestamps.length := by
  have timed := map_timestamp_walk amplitude timestamps price generator
  rw [← List.length_map (f := Warehouse.Sample.timestamp), timed]

/-- Instruments are filled one after the other exactly if all of them can be planted at the
beginning. -/
theorem succeeds_fillProducts_iff
    (instruments : List Instrument)
    (plain : ∀ instrument ∈ instruments, IsPlainName instrument.name)
    (generator : Generator)
    (written : Nat)
    (warehouse after : Warehouse)
    (total : Nat) :
    (fillProducts timestamps instruments generator written warehouse).Succeeds total after ↔
      (∀ series ∈ productSeries timestamps instruments generator, warehouse.Admits series) ∧
        total = written + instruments.length * timestamps.length ∧
        after = warehouse.plantAll (productSeries timestamps instruments generator) := by
  induction instruments generalizing generator written warehouse with
  | nil =>
      simp only [fillProducts, productSeries, Attempt.Succeeds, Except.ok.injEq]
      constructor
      · rintro ⟨rfl, rfl⟩
        exact ⟨List.forall_mem_nil _, by simp, rfl⟩
      · rintro ⟨_, total, rfl⟩
        exact ⟨by simpa using total.symm, rfl⟩
  | cons instrument instruments inductionHypothesis =>
      obtain ⟨plainFirst, plainOthers⟩ := List.forall_mem_cons.mp plain
      simp only [fillProducts, productSeries, Attempt.succeeds_andThen_iff,
        succeeds_fillProduct_iff plainFirst, inductionHypothesis plainOthers,
        List.forall_mem_cons, List.length_cons]
      have length : (instrumentWalk instrument timestamps generator).1.length =
          timestamps.length := length_walk ..
      have plainSeries := isPlainName_productSeries timestamps plainOthers
        (instrumentWalk instrument timestamps generator).2
      -- the others can be planted behind this one exactly if they can be planted now
      constructor
      · rintro ⟨_, _, ⟨admits, rfl, rfl⟩, admitsAfter, rfl, rfl⟩
        refine ⟨⟨admits, fun other member => ?_⟩, ?_, rfl⟩
        · exact (warehouse.admits_plant_iff plainFirst (plainSeries other member) admits).mp
            (admitsAfter other member)
        · rw [length, Nat.add_mul, Nat.one_mul]
          omega
      · rintro ⟨⟨admits, admitsOthers⟩, rfl, rfl⟩
        refine ⟨_, _, ⟨admits, rfl, rfl⟩, fun other member => ?_, ?_, rfl⟩
        · exact (warehouse.admits_plant_iff plainFirst (plainSeries other member) admits).mpr
            (admitsOthers other member)
        · rw [length, Nat.add_mul, Nat.one_mul]
          omega

end

/-- A name without the mark of a tag in front cannot be mistaken for a tag. -/
theorem isPlainName_of_unmarked
    {name : String}
    (named : Text.isAllBlank name = false)
    (unmarked : name.toList.head? ≠ some Tag.mark) :
    IsPlainName name where
  named := named
  noTag := by
    rintro tag rfl
    exact unmarked (by simp [Tag.text])

theorem isPlainName_dowJonesIndex : IsPlainName Instrument.dowJonesIndex :=
  isPlainName_of_unmarked (by decide) (by decide)

theorem isPlainName_dowJones :
    ∀ instrument ∈ Instrument.dowJones, IsPlainName instrument.name := by
  have checked : ∀ name ∈ Instrument.dowJones.map Instrument.name,
      Text.isAllBlank name = false ∧ name.toList.head? ≠ some Tag.mark := by
    decide +kernel
  intro instrument member
  obtain ⟨named, unmarked⟩ := checked _ (List.mem_map_of_mem member)
  exact isPlainName_of_unmarked named unmarked

theorem map_name_seriesOf (options : Options) (timestamps : List Timestamp) :
    (seriesOf options timestamps).map Series.name =
      Instrument.dowJonesIndex :: Instrument.dowJones.map Instrument.name :=
  congrArg (Instrument.dowJonesIndex :: ·) (map_name_productSeries ..)

theorem isPlainName_seriesOf (options : Options) (timestamps : List Timestamp) :
    ∀ series ∈ seriesOf options timestamps, IsPlainName series.name :=
  List.forall_mem_cons.mpr
    ⟨isPlainName_dowJonesIndex, isPlainName_productSeries timestamps isPlainName_dowJones _⟩

theorem nodup_name_seriesOf (options : Options) (timestamps : List Timestamp) :
    ((seriesOf options timestamps).map Series.name).Nodup := by
  rw [map_name_seriesOf]
  decide +kernel

theorem length_timestampsBack?
    {finish : Timestamp}
    {step : Duration}
    {count : Nat}
    {timestamps : List Timestamp}
    (found : timestampsBack? finish step count = some timestamps) :
    timestamps.length = count := by
  induction count generalizing timestamps with
  | zero =>
      cases found
      rfl
  | succ count inductionHypothesis =>
      simp only [timestampsBack?, Option.bind_eq_bind, Option.bind_eq_some_iff] at found
      obtain ⟨first, _, later, foundLater, ⟨⟩⟩ := found
      exact congrArg (· + 1) (inductionHypothesis foundLater)

/-- A timeline has as many timestamps as there are to be points. -/
theorem timestampsBack?_of_timeline
    {options : Options}
    {timestamps : List Timestamp}
    (found : timeline options = .ok timestamps) :
    timestampsBack? options.finish options.effectiveStep options.points = some timestamps := by
  unfold timeline at found
  split at found
  · cases found
  · split at found
    · next reached =>
        cases found
        exact reached
    · cases found

/-- Seeding succeeds exactly if there is a timeline and all series can be planted, and does
nothing but plant them. -/
theorem succeeds_run_iff
    (options : Options)
    (warehouse after : Warehouse)
    (report : Report) :
    (run options warehouse).Succeeds report after ↔
      ∃ timestamps, timeline options = .ok timestamps ∧
        (∀ series ∈ seriesOf options timestamps, warehouse.Admits series) ∧
        report = ⟨Instrument.dowJonesIndex, 30, 30 * options.points⟩ ∧
        after = warehouse.plantAll (seriesOf options timestamps) := by
  unfold run
  cases found : timeline options with
  | error error => simp [Attempt.Succeeds]
  | ok timestamps =>
      have length := length_timestampsBack? (timestampsBack?_of_timeline found)
      have instruments : Instrument.dowJones.length = 30 := rfl
      have plainSeries := isPlainName_productSeries timestamps isPlainName_dowJones
        (Generator.ofSeed options.seed)
      simp only [Attempt.succeeds_andThen_iff, Attempt.succeeds_note_iff,
        succeeds_createIndex_iff isPlainName_dowJonesIndex,
        succeeds_fillProducts_iff timestamps _ isPlainName_dowJones, instruments, length,
        Nat.zero_add, Except.ok.injEq, seriesOf, List.forall_mem_cons, Warehouse.plantAll_cons]
      constructor
      · rintro ⟨_, first, ⟨admits, planted⟩, written, last, ⟨admitsAfter, count, filled⟩,
          isReport, isAfter⟩
        subst planted count filled
        refine ⟨timestamps, rfl, ⟨admits, ?_⟩, isReport, isAfter⟩
        exact fun series member => (warehouse.admits_plant_iff isPlainName_dowJonesIndex
          (plainSeries series member) admits).mp (admitsAfter series member)
      · rintro ⟨_, same, ⟨admits, admitsOthers⟩, isReport, isAfter⟩
        subst same
        refine ⟨(), _, ⟨admits, rfl⟩, _, _, ⟨?_, rfl, rfl⟩, isReport, isAfter⟩
        exact fun series member => (warehouse.admits_plant_iff isPlainName_dowJonesIndex
          (plainSeries series member) admits).mpr (admitsOthers series member)

/-- The index carries `@indexes`, and the instruments carry `@products`. -/
theorem exists_mem_seriesOf_iff
    (options : Options)
    (timestamps : List Timestamp)
    (name : String)
    (tag : Tag) :
    (∃ series ∈ seriesOf options timestamps, series.name = name ∧ series.tag = tag) ↔
      name = Instrument.dowJonesIndex ∧ tag = Tag.indexes ∨
        name ∈ Instrument.dowJones.map Instrument.name ∧ tag = Tag.products := by
  rw [← map_name_productSeries timestamps _ (Generator.ofSeed options.seed)]
  constructor
  · rintro ⟨series, member, rfl, rfl⟩
    rcases List.mem_cons.mp member with rfl | isProduct
    · exact .inl ⟨rfl, rfl⟩
    · exact .inr ⟨List.mem_map_of_mem isProduct,
        tag_productSeries timestamps _ _ series isProduct⟩
  · rintro (⟨rfl, rfl⟩ | ⟨named, rfl⟩)
    · exact ⟨_, List.mem_cons_self, rfl, rfl⟩
    · obtain ⟨series, isProduct, rfl⟩ := List.mem_map.mp named
      exact ⟨series, List.mem_cons_of_mem _ isProduct, rfl,
        tag_productSeries timestamps _ _ series isProduct⟩

/-- The two tags of what is seeded come to exist and are listed. -/
theorem tags_of_isPlanted
    {options : Options}
    {timestamps : List Timestamp}
    {before after : Warehouse}
    (planted : Warehouse.IsPlanted (seriesOf options timestamps) before after)
    {tag : Tag}
    (isUsed : tag = Tag.indexes ∨ tag = Tag.products) :
    after.kind? tag.text = some .tag ∧ after.kind? Tag.tags.text = some .tag ∧
      after.carries tag.text Tag.tags.text := by
  have used : ∃ series ∈ seriesOf options timestamps, series.tag = tag := by
    rcases isUsed with rfl | rfl
    · obtain ⟨series, member, _, carried⟩ :=
        (exists_mem_seriesOf_iff options timestamps ..).mpr (.inl ⟨rfl, rfl⟩)
      exact ⟨series, member, carried⟩
    · obtain ⟨series, member, _, carried⟩ :=
        (exists_mem_seriesOf_iff options timestamps "MMM" _).mpr
          (.inr ⟨List.mem_cons_self, rfl⟩)
      exact ⟨series, member, carried⟩
  obtain ⟨series, member, rfl⟩ := used
  obtain ⟨isTag, tagsIsTag⟩ := planted.tagKinds series member
  exact ⟨isTag, tagsIsTag, planted.listed series member⟩

theorem exists_listed
    {options : Options}
    {timestamps : List Timestamp}
    {before after : Warehouse}
    (planted : Warehouse.IsPlanted (seriesOf options timestamps) before after) :
    ∃ listed, after.entriesByTag Tag.tags.text = .ok listed ∧
      Tag.indexes.text ∈ listed ∧ Tag.products.text ∈ listed := by
  obtain ⟨_, tagsIsTag, indexesListed⟩ := tags_of_isPlanted planted (.inl rfl)
  obtain ⟨_, _, productsListed⟩ := tags_of_isPlanted planted (.inr rfl)
  exact ⟨after.carriers Tag.tags.text, if_pos tagsIsTag,
    (after.mem_carriers_iff ..).mpr indexesListed, (after.mem_carriers_iff ..).mpr productsListed⟩

/-- Seeding an empty warehouse succeeds if all samples can be kept. -/
theorem result_run_blank
    {options : Options}
    {timestamps : List Timestamp}
    (found : timeline options = .ok timestamps)
    (keeps : ((seriesOf options timestamps).all fun series => series.samples.all fun sample =>
      sample.value.isFinite && sample.timestamp.toUtc?.isSome) = true)
    (versions : List String) :
    (run options (Warehouse.blank versions)).result =
      .ok ⟨Instrument.dowJonesIndex, 30, 30 * options.points⟩ := by
  simp only [List.all_eq_true, Bool.and_eq_true] at keeps
  have admits : ∀ series ∈ seriesOf options timestamps,
      (Warehouse.blank versions).Admits series := by
    intro series member
    exact ⟨by simp, by simp, by simp, fun sample sampled => (keeps series member sample sampled).1,
      fun sample sampled => (keeps series member sample sampled).2⟩
  exact ((succeeds_run_iff options (Warehouse.blank versions) _ _).mpr
    ⟨timestamps, found, admits, rfl, rfl⟩).1

/-- If seeding succeeds, then whatever stood under the names of the index and its instruments
is replaced by their series: the index without points, and the instruments with those of their
walks, which are worked out from the options alone. Apart from this, the tags of the series come
to exist and are listed, and no row is changed. Seeding again changes nothing at all. -/
theorem run_of_ok
    {options : Options}
    {before : Warehouse}
    {report : Report}
    (succeeds : (run options before).result = .ok report) :
    ∃ timestamps, timeline options = .ok timestamps ∧
      let series := seriesOf options timestamps
      let after := (run options before).warehouse
      series.map Series.name =
        Instrument.dowJonesIndex :: Instrument.dowJones.map Instrument.name ∧
      Warehouse.IsPlanted series before after ∧
      (∃ listed, after.entriesByTag Tag.tags.text = .ok listed ∧
        Tag.indexes.text ∈ listed ∧ Tag.products.text ∈ listed) ∧
      report = ⟨Instrument.dowJonesIndex, 30, 30 * options.points⟩ ∧
      (run options after).result = .ok report ∧ (run options after).warehouse = after := by
  obtain ⟨timestamps, found, admits, isReport, isAfter⟩ :=
    (succeeds_run_iff options before _ report).mp ⟨succeeds, rfl⟩
  have plain := isPlainName_seriesOf options timestamps
  have distinct := nodup_name_seriesOf options timestamps
  have planted := Warehouse.isPlanted_plantAll _ plain distinct admits
  have admitsAgain : ∀ series ∈ seriesOf options timestamps,
      (before.plantAll (seriesOf options timestamps)).Admits series := fun series member =>
    (Warehouse.admits_plantAll_iff _ plain admits (plain series member)).mpr
      (admits series member)
  have replanted := Warehouse.isPlanted_plantAll _ plain distinct admitsAgain
  rw [← isAfter] at planted admitsAgain replanted
  obtain ⟨sameReport, again⟩ := (succeeds_run_iff options _ _ report).mpr
    ⟨timestamps, found, admitsAgain, isReport, rfl⟩
  exact ⟨timestamps, found, map_name_seriesOf options timestamps, planted,
    exists_listed planted, isReport, sameReport, again.trans (planted.again replanted)⟩

/-- What has been seeded with one point for each instrument stays as it is. -/
theorem run_of_ok_sample :
    let options : Options :=
      { points := 1, finish := ⟨1772452800000000000, 0, by decide⟩, seed := 7 }
    let after := (run options (Warehouse.blank [])).warehouse
    (run options (Warehouse.blank [])).result = .ok ⟨Instrument.dowJonesIndex, 30, 30⟩ ∧
      (run options after).warehouse = after := by
  intro options after
  have found : timeline options = .ok [⟨1772452740000000000, 0, by decide⟩] := rfl
  have succeeds := result_run_blank found (by decide +kernel) []
  obtain ⟨_, _, _, _, _, _, _, again⟩ := run_of_ok succeeds
  exact ⟨succeeds, again⟩

end Seed
end CompositeIndex
