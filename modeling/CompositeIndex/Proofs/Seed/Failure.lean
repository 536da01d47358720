import CompositeIndex.Proofs.Seed.Effect
import CompositeIndex.Proofs.Warehouse.Replacement

/-!
# Seeding that breaks off

Every operation of seeding is committed by itself. An attempt that fails therefore keeps the
series that it has planted so far, and the series at which it breaks off is left with a part
of what belongs to it: nothing has happened to it if it could not be created, and otherwise
it has lost its points and tags. Only the options are checked before anything is written.
-/

namespace CompositeIndex

/-! ## Attempts that fail -/

namespace Attempt

/-- The attempt breaks off with this error and leaves these tables. -/
def Fails (attempt : Attempt α) (error : WarehouseError) (after : Warehouse) : Prop :=
  attempt.result = .error error ∧ attempt.warehouse = after

theorem fails_perform_iff
    (operation : Warehouse → Warehouse.Outcome α)
    (warehouse : Warehouse)
    (error : WarehouseError)
    (after : Warehouse) :
    (perform operation warehouse).Fails error after ↔
      operation warehouse = .error error ∧ after = warehouse := by
  unfold perform Fails
  cases operation warehouse with
  | error other => simp [eq_comm]
  | ok result => simp

/-- Of two attempts in a row, the first one fails, or the second one after it. -/
theorem fails_andThen_iff
    (attempt : Attempt α)
    (next : α → Warehouse → Attempt β)
    (error : WarehouseError)
    (after : Warehouse) :
    (attempt.andThen next).Fails error after ↔
      attempt.Fails error after ∨
        ∃ answer middle, attempt.Succeeds answer middle ∧
          (next answer middle).Fails error after := by
  unfold andThen Fails Succeeds
  cases attempt.result with
  | error other => simp
  | ok answer => simp

end Attempt

namespace Warehouse

/-! ## Entries that are left alone -/

/-- Nothing but the named series comes or is replaced. Besides, tags may come to exist and
may be listed under `@tags`. -/
structure Spares (names : List String) (before after : Warehouse) : Prop where
  series_iff : ∀ entry ∉ names,
    after.kind? entry = some .series ↔ before.kind? entry = some .series
  columns : ∀ entry ∉ names, ∀ column,
    after.declares entry column = before.declares entry column
  points : ∀ entry ∉ names, ∀ column micro,
    after.valueAt? entry column micro = before.valueAt? entry column micro
  tags : ∀ tag, before.kind? tag = some .tag → after.kind? tag = some .tag
  carries_iff : ∀ entry ∉ names, ∀ tag, tag ≠ Tag.tags.text →
    (after.carries entry tag ↔ before.carries entry tag)

namespace Spares

variable {names : List String} {before middle after : Warehouse}

theorem refl (names : List String) (warehouse : Warehouse) :
    Spares names warehouse warehouse where
  series_iff := fun _ _ => Iff.rfl
  columns := fun _ _ _ => rfl
  points := fun _ _ _ _ => rfl
  tags := fun _ isTag => isTag
  carries_iff := fun _ _ _ _ => Iff.rfl

theorem trans (first : Spares names before middle) (second : Spares names middle after) :
    Spares names before after where
  series_iff := fun entry isOther =>
    (second.series_iff entry isOther).trans (first.series_iff entry isOther)
  columns := fun entry isOther column =>
    (second.columns entry isOther column).trans (first.columns entry isOther column)
  points := fun entry isOther column micro =>
    (second.points entry isOther column micro).trans
      (first.points entry isOther column micro)
  tags := fun tag isTag => second.tags tag (first.tags tag isTag)
  carries_iff := fun entry isOther tag notTags =>
    (second.carries_iff entry isOther tag notTags).trans
      (first.carries_iff entry isOther tag notTags)

theorem mono
    {more : List String}
    (spares : Spares names before after)
    (included : names ⊆ more) :
    Spares more before after where
  series_iff := fun entry isOther => spares.series_iff entry fun member =>
    isOther (included member)
  columns := fun entry isOther => spares.columns entry fun member => isOther (included member)
  points := fun entry isOther => spares.points entry fun member => isOther (included member)
  tags := spares.tags
  carries_iff := fun entry isOther => spares.carries_iff entry fun member =>
    isOther (included member)

theorem replaceSeries
    {name : String}
    (notTag : before.kind? name ≠ some .tag)
    (columns : List String) :
    Spares [name] before (before.replaceSeries name columns) where
  series_iff := by
    intro entry isOther
    have different : name ≠ entry := fun same => isOther (by simp [same])
    rw [kind?_replaceSeries, if_neg different]
  columns := by
    intro entry isOther column
    have different : name ≠ entry := fun same => isOther (by simp [same])
    rw [Bool.eq_iff_iff, declares_replaceSeries, if_neg different]
  points := by
    intro entry isOther column micro
    have different : name ≠ entry := fun same => isOther (by simp [same])
    rw [valueAt?_replaceSeries, if_neg different]
  tags := by
    intro tag isTag
    have different : name ≠ tag := by
      rintro rfl
      exact notTag isTag
    rwa [kind?_replaceSeries, if_neg different]
  carries_iff := by
    intro entry isOther tag _
    rw [carries_replaceSeries]
    exact and_iff_right fun same => isOther (by simp [same])

theorem insertAttachment
    {entry tag : String}
    (covered : entry ∈ names ∨ tag = Tag.tags.text) :
    Spares names before (before.insertAttachment entry tag) where
  series_iff := fun other _ =>
    not_iff_not.mp (before.kind?_insertAttachment_ne_series_iff entry tag other)
  columns := fun _ _ _ => rfl
  points := fun _ _ _ _ => rfl
  tags := by
    intro other isTag
    rw [kind?_insertAttachment]
    split
    · next same => rw [same, isTag, Option.getD_some]
    · exact isTag
  carries_iff := by
    intro other isOther wanted notTags
    rw [carries_insertAttachment]
    refine or_iff_right ?_
    rintro ⟨rfl, rfl⟩
    exact covered.elim isOther notTags

theorem insertPoints (entry column : String) (samples : List Sample) :
    Spares [entry] before (before.insertPoints entry column samples) where
  series_iff := fun other _ => by rw [kind?_insertPoints]
  columns := fun other _ wanted => by rw [declares_insertPoints]
  points := by
    intro other isOther wanted micro
    rw [valueAt?_insertPoints, if_neg]
    rintro ⟨rfl, _⟩
    exact isOther List.mem_cons_self
  tags := fun tag isTag => by rwa [kind?_insertPoints]
  carries_iff := fun other _ tag _ => by rw [carries_insertPoints]

theorem plant (series : Seed.Series) (notTag : before.kind? series.name ≠ some .tag) :
    Spares [series.name] before (before.plant series) :=
  (((replaceSeries notTag [valueColumn]).trans
    (insertAttachment (.inl List.mem_cons_self))).trans
      (insertAttachment (.inr rfl))).trans (insertPoints _ _ _)

theorem plantAll
    (series : List Seed.Series)
    (plain : ∀ planted ∈ series, Seed.IsPlainName planted.name)
    {warehouse : Warehouse}
    (admits : ∀ planted ∈ series, warehouse.Admits planted) :
    Spares (series.map Seed.Series.name) warehouse (warehouse.plantAll series) := by
  induction series generalizing warehouse with
  | nil => exact refl _ _
  | cons first series inductionHypothesis =>
      obtain ⟨plainFirst, plainRest⟩ := List.forall_mem_cons.mp plain
      obtain ⟨admitsFirst, admitsRest⟩ := List.forall_mem_cons.mp admits
      have admitsAfter : ∀ planted ∈ series, (warehouse.plant first).Admits planted :=
        fun planted member =>
          (warehouse.admits_plant_iff plainFirst (plainRest planted member) admitsFirst).mpr
            (admitsRest planted member)
      rw [List.map_cons, plantAll_cons]
      exact ((plant first admitsFirst.notTag).mono (by simp)).trans
        ((inductionHypothesis plainRest admitsAfter).mono (by simp))

/-- Questions for the last values of the other entries are answered as before. -/
theorem lastValue_eq
    (spares : Spares names before after)
    {entry : String}
    (isOther : entry ∉ names)
    (column : String)
    (start finish : Timestamp) :
    after.lastValue entry column start finish =
      before.lastValue entry column start finish := by
  have sameCheck : after.checkColumn entry column = before.checkColumn entry column := by
    simp only [checkColumn, ne_eq, spares.series_iff entry isOther,
      spares.columns entry isOther]
  have sameValues : after.valueAt? entry column = before.valueAt? entry column :=
    funext (spares.points entry isOther column)
  have sameLast := after.lastIn_valuesBetween entry column start.micros finish.micros
  rw [sameValues] at sameLast
  simp only [lastValue, lastBetween, sameCheck,
    sameLast.unique (before.lastIn_valuesBetween ..)]

/-- A tag that is listed is still listed, with the same other entries. -/
theorem entriesByTag_eq
    (spares : Spares names before after)
    {tag : String}
    (notTags : tag ≠ Tag.tags.text)
    {listed : List String}
    (answered : before.entriesByTag tag = .ok listed) :
    ∃ now, after.entriesByTag tag = .ok now ∧
      ∀ entry ∉ names, entry ∈ now ↔ entry ∈ listed := by
  obtain ⟨isTag, _, carried⟩ := (entriesByTag_eq_ok_iff _).mp answered
  refine ⟨after.carriers tag, if_pos (spares.tags tag isTag), fun entry isOther => ?_⟩
  rw [mem_carriers_iff, spares.carries_iff entry isOther tag notTags, carried]

end Spares

/-! ## A series that is not planted to the end -/

/-- The series has a value column without any point. -/
structure IsEmptied (warehouse : Warehouse) (name : String) : Prop where
  kind : warehouse.kind? name = some .series
  columns : ∀ column, warehouse.declares name column = true ↔ column = valueColumn
  points : ∀ column micro, warehouse.valueAt? name column micro = none

theorem isEmptied_replaceSeries (warehouse : Warehouse) (name : String) :
    (warehouse.replaceSeries name [valueColumn]).IsEmptied name where
  kind := by rw [kind?_replaceSeries, if_pos rfl]
  columns := by simp
  points := by simp

theorem IsEmptied.insertAttachment
    {warehouse : Warehouse}
    {name : String}
    (emptied : warehouse.IsEmptied name)
    (entry tag : String) :
    (warehouse.insertAttachment entry tag).IsEmptied name where
  kind := (not_iff_not.mp (warehouse.kind?_insertAttachment_ne_series_iff entry tag name)).mpr
    emptied.kind
  columns := emptied.columns
  points := emptied.points

/-- An emptied series has no last value. -/
theorem IsEmptied.lastValue_eq
    {warehouse : Warehouse}
    {name : String}
    (emptied : warehouse.IsEmptied name)
    {start finish : Timestamp}
    (startInUtc : InUtc start)
    (finishInUtc : InUtc finish) :
    warehouse.lastValue name valueColumn start finish = .ok none := by
  have known := (warehouse.checkColumn_eq_ok_iff name valueColumn).mpr
    ⟨emptied.kind, (emptied.columns valueColumn).mpr rfl⟩
  have last := warehouse.lastIn_valuesBetween name valueColumn start.micros finish.micros
  have missing : LastIn (warehouse.valueAt? name valueColumn) start.micros finish.micros none :=
    .missing fun micro _ _ => emptied.points valueColumn micro
  have inUtc : (start.toUtc?.isSome && finish.toUtc?.isSome) = true :=
    Bool.and_eq_true_iff.mpr ⟨startInUtc, finishInUtc⟩
  simp only [lastValue, lastBetween, known, if_pos inUtc, last.unique missing]

/-- The entry is, or becomes, a series, so that it cannot be used as a tag. -/
def IsTaken (warehouse : Warehouse) (name tag : String) : Prop :=
  name = tag ∨ warehouse.kind? tag = some .series

/-- How a tag that is a series is refused. -/
def tagRefusal (tag : String) : WarehouseError :=
  .rejected (Text.quoted tag ++ " is a series and cannot be used as a tag")

/-- How planting a series breaks off, with the error and with what is left. -/
inductive Cut (before : Warehouse) (series : Seed.Series) : WarehouseError → Warehouse → Prop
  /-- The series is not created. -/
  | refused
      (error : WarehouseError)
      (refuses : before.checkSeries series.name [valueColumn] = .error error) :
      Cut before series error before
  /-- The series is created, but its tag cannot be used. -/
  | untagged
      (created : before.checkSeries series.name [valueColumn] = .ok ())
      (taken : before.IsTaken series.name series.tag.text) :
      Cut before series (tagRefusal series.tag.text)
        (before.replaceSeries series.name [valueColumn])
  /-- The series carries its tag, but `@tags` cannot be used. -/
  | unlisted
      (created : before.checkSeries series.name [valueColumn] = .ok ())
      (free : ¬before.IsTaken series.name series.tag.text)
      (taken : before.IsTaken series.name Tag.tags.text) :
      Cut before series (tagRefusal Tag.tags.text)
        ((before.replaceSeries series.name [valueColumn]).insertAttachment series.name
          series.tag.text)
  /-- The series has no points, since its samples cannot be added. -/
  | unfilled
      (error : WarehouseError)
      (created : before.checkSeries series.name [valueColumn] = .ok ())
      (refuses : (before.plant { series with samples := [] }).ingest series.name valueColumn
        series.samples = .error error) :
      Cut before series error (before.plant { series with samples := [] })

namespace Cut

variable {before after : Warehouse} {series : Seed.Series} {error : WarehouseError}

theorem spares (cut : Cut before series error after) : Spares [series.name] before after := by
  have notTag (created : before.checkSeries series.name [valueColumn] = .ok ()) :
      before.kind? series.name ≠ some .tag :=
    ((before.checkSeries_eq_ok_iff _ _).mp created).2.2.2
  cases cut with
  | refused => exact .refl _ _
  | untagged created => exact .replaceSeries (notTag created) _
  | unlisted created =>
      exact (Spares.replaceSeries (notTag created) _).trans
        (.insertAttachment (.inl List.mem_cons_self))
  | unfilled _ created => exact .plant { series with samples := [] } (notTag created)

/-- A series is left as it was, or emptied. -/
theorem untouched_or_isEmptied (cut : Cut before series error after) :
    (before.Obstacle series.name [valueColumn] ∧ after = before) ∨
      after.IsEmptied series.name := by
  have emptied := before.isEmptied_replaceSeries series.name
  cases cut with
  | refused _ refuses =>
      refine .inl ⟨?_, rfl⟩
      by_contra clear
      rw [(before.checkSeries_eq_ok_iff_not_obstacle _ _).mpr clear] at refuses
      cases refuses
  | untagged => exact .inr emptied
  | unlisted => exact .inr (emptied.insertAttachment _ _)
  | unfilled => exact .inr ((emptied.insertAttachment _ _).insertAttachment _ _)

end Cut

/-! ## Operations that fail -/

theorem createSeries_eq_error_iff
    (warehouse : Warehouse)
    (name : String)
    (columns : List String)
    (error : WarehouseError) :
    warehouse.createSeries name columns = .error error ↔
      warehouse.checkSeries name columns = .error error := by
  unfold createSeries
  cases warehouse.checkSeries name columns <;> simp

theorem attachTag_eq_error_iff
    (warehouse : Warehouse)
    (entry tag : String)
    (error : WarehouseError) :
    warehouse.attachTag entry tag = .error error ↔
      warehouse.checkAttachment entry tag = .error error := by
  unfold attachTag
  cases warehouse.checkAttachment entry tag <;> simp

/-- A tag is refused exactly if it is a series, provided that the entry exists. -/
theorem checkAttachment_eq_error_iff
    {warehouse : Warehouse}
    {entry : String}
    (found : warehouse.kind? entry ≠ none)
    (tag : Tag)
    (error : WarehouseError) :
    warehouse.checkAttachment entry tag.text = .error error ↔
      warehouse.kind? tag.text = some .series ∧ error = tagRefusal tag.text := by
  have isSome : ¬(warehouse.kind? entry).isNone = true := by simpa using found
  have named : checkName "tag" tag.text = .ok () :=
    (checkName_eq_ok_iff _ _).mpr tag.isAllBlank_text
  unfold checkAttachment
  rw [named, if_neg isSome]
  by_cases isSeries : warehouse.kind? tag.text = some .series
  · rw [if_pos isSeries]
    simp [isSeries, tagRefusal, bind, Except.bind, throw, throwThe, MonadExceptOf.throw,
      eq_comm]
  · rw [if_neg isSeries]
    simp [isSeries, bind, Except.bind, pure, Except.pure]

end Warehouse

namespace Seed

/-! ## Calls that plant series -/

/-- Where a series is created without its tag, another name is a series or not as before. -/
theorem kind?_replaceSeries_eq_series_iff
    (warehouse : Warehouse)
    (name : String)
    (columns : List String)
    (tag : String) :
    (warehouse.replaceSeries name columns).kind? tag = some .series ↔
      warehouse.IsTaken name tag := by
  rw [Warehouse.kind?_replaceSeries, Warehouse.IsTaken]
  split
  · next same => simp [same]
  · next different => simp [different]

theorem cut_of_fails_createTagged
    {name : String}
    {tag : Tag}
    {warehouse after : Warehouse}
    {error : WarehouseError}
    (fails : (createTagged name tag warehouse).Fails error after)
    (samples : List Warehouse.Sample) :
    warehouse.Cut ⟨name, tag, samples⟩ error after := by
  simp only [createTagged, Attempt.fails_andThen_iff, Attempt.fails_perform_iff,
    Attempt.succeeds_perform_iff, Warehouse.createSeries_eq_ok_iff,
    Warehouse.attachTag_eq_ok_iff, Warehouse.createSeries_eq_error_iff,
    Warehouse.attachTag_eq_error_iff] at fails
  rcases fails with ⟨refuses, rfl⟩ | ⟨_, _, ⟨created, rfl⟩, attaching⟩
  · exact .refused error refuses
  have found : (warehouse.replaceSeries name [valueColumn]).kind? name ≠ none := by simp
  rcases attaching with ⟨refuses, rfl⟩ | ⟨_, _, ⟨checked, _, rfl⟩, listing⟩
  · obtain ⟨isSeries, rfl⟩ := (Warehouse.checkAttachment_eq_error_iff found tag _).mp refuses
    exact .untagged created ((kind?_replaceSeries_eq_series_iff ..).mp isSeries)
  have tagExists : ((warehouse.replaceSeries name [valueColumn]).insertAttachment name
      tag.text).kind? tag.text ≠ none := by simp
  rcases listing with ⟨refuses, rfl⟩ | ⟨_, _, _, ended, _⟩
  · obtain ⟨isSeries, rfl⟩ :=
      (Warehouse.checkAttachment_eq_error_iff tagExists Tag.tags _).mp refuses
    refine .unlisted created (fun taken => ?_) ?_
    · obtain ⟨_, _, notSeries⟩ := (Warehouse.checkAttachment_eq_ok_iff ..).mp checked
      exact notSeries ((kind?_replaceSeries_eq_series_iff ..).mpr taken)
    · refine (kind?_replaceSeries_eq_series_iff _ _ [valueColumn] _).mp ?_
      exact (not_iff_not.mp (Warehouse.kind?_insertAttachment_ne_series_iff ..)).mp isSeries
  · cases ended

/-- An index that is not created is cut short. -/
theorem cut_of_fails_createIndex
    {name : String}
    {warehouse after : Warehouse}
    {error : WarehouseError}
    (fails : (createIndex name warehouse).Fails error after) :
    warehouse.Cut ⟨name, Tag.indexes, []⟩ error after := by
  rcases (Attempt.fails_andThen_iff ..).mp fails with creating | ⟨_, _, _, ended, _⟩
  · exact cut_of_fails_createTagged creating []
  · cases ended

/-- An instrument that is not filled is cut short. -/
theorem cut_of_fails_fillProduct
    {name : String}
    {samples : List Warehouse.Sample}
    (plain : IsPlainName name)
    {warehouse after : Warehouse}
    {error : WarehouseError}
    (fails : (fillProduct name samples warehouse).Fails error after) :
    warehouse.Cut ⟨name, Tag.products, samples⟩ error after := by
  rcases (Attempt.fails_andThen_iff ..).mp fails with creating | ⟨_, middle, created, filling⟩
  · exact cut_of_fails_createTagged creating samples
  obtain ⟨admits, rfl⟩ := (succeeds_createTagged_iff plain ..).mp created
  have checked : warehouse.checkSeries name [valueColumn] = .ok () :=
    (warehouse.checkSeries_eq_ok_iff _ _).mpr
      ⟨plain.named, List.cons_ne_nil _ _,
        List.forall_mem_singleton.mpr isAllBlank_valueColumn, admits.notTag⟩
  rcases (Attempt.fails_andThen_iff ..).mp filling with ingesting | ⟨_, _, _, ended, _⟩
  · obtain ⟨refuses, rfl⟩ := (Attempt.fails_perform_iff ..).mp ingesting
    exact .unfilled error checked refuses
  · cases ended

/-- Series are planted one after the other up to one that is cut short. -/
def BreaksOff
    (series : List Series)
    (before : Warehouse)
    (error : WarehouseError)
    (after : Warehouse) : Prop :=
  ∃ planted blocked later, series = planted ++ blocked :: later ∧
    (∀ earlier ∈ planted, before.Admits earlier) ∧
    (before.plantAll planted).Cut blocked error after

namespace BreaksOff

variable {first : Series} {series : List Series} {before after : Warehouse}
  {error : WarehouseError}

/-- The first series is cut short. -/
theorem atFirst (cut : before.Cut first error after) (later : List Series) :
    BreaksOff (first :: later) before error after :=
  ⟨[], first, later, rfl, List.forall_mem_nil _, cut⟩

/-- The first series is planted, and a later one is cut short. -/
theorem behind
    (breaksOff : BreaksOff series (before.plant first) error after)
    (plain : ∀ planted ∈ first :: series, IsPlainName planted.name)
    (admits : before.Admits first) :
    BreaksOff (first :: series) before error after := by
  obtain ⟨planted, blocked, later, rfl, admitsAfter, cut⟩ := breaksOff
  obtain ⟨plainFirst, plainOthers⟩ := List.forall_mem_cons.mp plain
  refine ⟨first :: planted, blocked, later, rfl, ?_, cut⟩
  refine List.forall_mem_cons.mpr ⟨admits, fun earlier member => ?_⟩
  exact (before.admits_plant_iff plainFirst
    (plainOthers earlier (List.mem_append_left _ member)) admits).mp
      (admitsAfter earlier member)

end BreaksOff

theorem breaksOff_of_fails_fillProducts
    {timestamps : List Timestamp}
    (instruments : List Instrument)
    (plain : ∀ instrument ∈ instruments, IsPlainName instrument.name)
    {generator : Generator}
    {written : Nat}
    {warehouse after : Warehouse}
    {error : WarehouseError}
    (fails : (fillProducts timestamps instruments generator written warehouse).Fails
      error after) :
    BreaksOff (productSeries timestamps instruments generator) warehouse error after := by
  induction instruments generalizing generator written warehouse with
  | nil => cases fails.1
  | cons instrument instruments inductionHypothesis =>
      obtain ⟨plainFirst, plainOthers⟩ := List.forall_mem_cons.mp plain
      rcases (Attempt.fails_andThen_iff ..).mp fails with filling | ⟨_, _, filled, later⟩
      · exact .atFirst (cut_of_fails_fillProduct plainFirst filling) _
      · obtain ⟨admits, _, rfl⟩ := (succeeds_fillProduct_iff plainFirst ..).mp filled
        exact (inductionHypothesis plainOthers later).behind
          (isPlainName_productSeries timestamps plain generator) admits

/-- Seeding fails before anything is written, or breaks off at one of its series. -/
theorem of_fails_run
    {options : Options}
    {warehouse after : Warehouse}
    {error : WarehouseError}
    (fails : (run options warehouse).Fails error after) :
    (timeline options = .error error ∧ after = warehouse) ∨
      ∃ timestamps, timeline options = .ok timestamps ∧
        BreaksOff (seriesOf options timestamps) warehouse error after := by
  unfold run at fails
  cases found : timeline options with
  | error other =>
      rw [found] at fails
      obtain ⟨⟨⟩, rfl⟩ := fails
      exact .inl ⟨rfl, rfl⟩
  | ok timestamps =>
      rw [found] at fails
      refine .inr ⟨timestamps, rfl, ?_⟩
      rcases (Attempt.fails_andThen_iff ..).mp fails with creating | ⟨_, _, created, filling⟩
      · exact .atFirst (cut_of_fails_createIndex creating) _
      obtain ⟨admits, rfl⟩ :=
        (succeeds_createIndex_iff isPlainName_dowJonesIndex ..).mp created
      rcases (Attempt.fails_andThen_iff ..).mp filling with filling | ⟨_, _, _, ended, _⟩
      · exact (breaksOff_of_fails_fillProducts _ isPlainName_dowJones filling).behind
          (isPlainName_seriesOf options timestamps) admits
      · cases ended

/-! ## What a failed call leaves -/

/-- Entries other than the named ones are as they were, as far as questions show. -/
structure KeepsOthers (names : List String) (before after : Warehouse) : Prop where
  lastValue : ∀ entry ∉ names, ∀ column start finish,
    after.lastValue entry column start finish = before.lastValue entry column start finish
  /-- The listings of all tags but `@tags` keep their other members. -/
  listed : ∀ tag listed, tag ≠ Tag.tags.text → before.entriesByTag tag = .ok listed →
    ∃ now, after.entriesByTag tag = .ok now ∧ ∀ entry ∉ names, entry ∈ now ↔ entry ∈ listed

theorem keepsOthers_of_spares
    {names : List String}
    {before after : Warehouse}
    (spares : Warehouse.Spares names before after) :
    KeepsOthers names before after where
  lastValue := fun _ isOther => spares.lastValue_eq isOther
  listed := fun _ _ notTags answered => spares.entriesByTag_eq notTags answered

/-- What is left where planting a series breaks off: the tables as they were if it could not
be created, and otherwise a series without points. -/
structure IsCutShort
    (before : Warehouse)
    (series : Series)
    (error : WarehouseError)
    (after : Warehouse) : Prop where
  cut : before.Cut series error after
  untouched_or_emptied :
    (before.Obstacle series.name [valueColumn] ∧ after = before) ∨
      ∀ start finish, Warehouse.InUtc start → Warehouse.InUtc finish →
        after.lastValue series.name valueColumn start finish = .ok none
  others : KeepsOthers [series.name] before after

theorem isCutShort_of_cut
    {before after : Warehouse}
    {series : Series}
    {error : WarehouseError}
    (cut : before.Cut series error after) :
    IsCutShort before series error after where
  cut := cut
  untouched_or_emptied := by
    rcases cut.untouched_or_isEmptied with untouched | emptied
    · exact .inl untouched
    · exact .inr fun _ _ startInUtc finishInUtc =>
        emptied.lastValue_eq startInUtc finishInUtc
  others := keepsOthers_of_spares cut.spares

/-- What a call that fails has done. Seeding has done nothing if the options are refused.
Otherwise it has planted its series up to one, at which it breaks off: the tables are as they
were there if this series could not be created, and otherwise it has lost its points, which
holds for the creation of an index or of an instrument of any name as well. Other entries are
left alone. -/
theorem isCutShort_of_error (before : Warehouse) :
    (∀ options error, (run options before).result = .error error →
      let after := (run options before).warehouse
      timeline options = .error error ∧ after = before ∨
        ∃ timestamps planted blocked later, timeline options = .ok timestamps ∧
          seriesOf options timestamps = planted ++ blocked :: later ∧
          Warehouse.IsPlanted planted before (before.plantAll planted) ∧
          IsCutShort (before.plantAll planted) blocked error after ∧
          KeepsOthers ((planted ++ [blocked]).map Series.name) before after) ∧
    (∀ name error, (createIndex name before).result = .error error →
      IsCutShort before ⟨name, Tag.indexes, []⟩ error (createIndex name before).warehouse) ∧
    (∀ name error, (createProduct name before).result = .error error →
      IsCutShort before ⟨name, Tag.products, []⟩ error
        (createProduct name before).warehouse) := by
  refine ⟨?seeding, ?index, ?product⟩
  case seeding =>
    intro options error fails after
    rcases of_fails_run ⟨fails, rfl⟩ with early | ⟨timestamps, found, breaksOff⟩
    · exact .inl early
    obtain ⟨planted, blocked, later, split, admits, cut⟩ := breaksOff
    have plain : ∀ series ∈ planted, IsPlainName series.name := fun series member =>
      isPlainName_seriesOf options timestamps series (by simp [split, member])
    have distinct : (planted.map Series.name).Nodup := by
      have all := nodup_name_seriesOf options timestamps
      rw [split, List.map_append] at all
      exact (List.nodup_append.mp all).1
    have spares := ((Warehouse.Spares.plantAll planted plain admits).mono
      (List.subset_append_left _ [blocked.name])).trans
        (cut.spares.mono (List.subset_append_right _ _))
    refine .inr ⟨timestamps, planted, blocked, later, found, split,
      Warehouse.isPlanted_plantAll planted plain distinct admits, isCutShort_of_cut cut, ?_⟩
    rw [List.map_append]
    exact keepsOthers_of_spares spares
  case index =>
    intro name error fails
    exact isCutShort_of_cut (cut_of_fails_createIndex ⟨fails, rfl⟩)
  case product =>
    intro name error fails
    exact isCutShort_of_cut (cut_of_fails_createTagged ⟨fails, rfl⟩ [])

/-- A warehouse that holds a point of the index, and a series that has the name of a tag. -/
def misnamed : Warehouse :=
  Warehouse.afterAll
    [.createSeries Instrument.dowJonesIndex [valueColumn],
      .ingest Instrument.dowJonesIndex valueColumn
        [⟨⟨1772452740 * nanosPerSecond, 0, by decide⟩, 1⟩],
      .createSeries Tag.indexes.text [valueColumn]]
    (Warehouse.blank [])

/-- Seeding with one point for each instrument. -/
def onePoint : Options where
  points := 1
  finish := ⟨1772452770 * nanosPerSecond, 0, by decide⟩
  seed := 7

theorem result_run_misnamed :
    (run onePoint misnamed).result = .error (Warehouse.tagRefusal Tag.indexes.text) := by
  decide +kernel

theorem isCutShort_of_error_sample :
    let refusal := Warehouse.tagRefusal Tag.indexes.text
    (run onePoint misnamed).result = .error refusal ∧
      (∃ timestamps planted blocked later, timeline onePoint = .ok timestamps ∧
        seriesOf onePoint timestamps = planted ++ blocked :: later ∧
        IsCutShort (misnamed.plantAll planted) blocked refusal
          (run onePoint misnamed).warehouse) ∧
      (createIndex Instrument.dowJonesIndex misnamed).result = .error refusal ∧
      IsCutShort misnamed ⟨Instrument.dowJonesIndex, Tag.indexes, []⟩ refusal
        (createIndex Instrument.dowJonesIndex misnamed).warehouse := by
  intro refusal
  obtain ⟨seeding, index, _⟩ := isCutShort_of_error misnamed
  have indexFails : (createIndex Instrument.dowJonesIndex misnamed).result =
      .error refusal := by
    decide +kernel
  refine ⟨result_run_misnamed, ?_, indexFails, index _ _ indexFails⟩
  rcases seeding onePoint _ result_run_misnamed with ⟨refused, _⟩ |
    ⟨timestamps, planted, blocked, later, found, split, _, cutShort, _⟩
  · have found : timeline onePoint = .ok [⟨1772452710 * nanosPerSecond, 0, by decide⟩] := rfl
    rw [found] at refused
    cases refused
  · exact ⟨timestamps, planted, blocked, later, found, split, cutShort⟩

/-- Seeding that fails can empty a series: the index has lost its point, since its tag turned
out to be a series only after the index had been replaced. -/
theorem run_empties_index :
    ¬∀ (calls : List Warehouse.Call) (versions : List String) (options : Options)
        (error : WarehouseError),
      let before := Warehouse.afterAll calls (Warehouse.blank versions)
      (run options before).result = .error error →
        ∀ entry column start finish,
          (run options before).warehouse.lastValue entry column start finish =
            before.lastValue entry column start finish := by
  intro everywhere
  let start : Timestamp := ⟨1772452000 * nanosPerSecond, 0, by decide⟩
  let finish : Timestamp := ⟨1772453000 * nanosPerSecond, 0, by decide⟩
  have same : (run onePoint misnamed).warehouse.lastValue Instrument.dowJonesIndex valueColumn
      start finish =
        misnamed.lastValue Instrument.dowJonesIndex valueColumn start finish :=
    everywhere _ _ onePoint _ result_run_misnamed _ _ _ _
  have held : (misnamed.lastValue Instrument.dowJonesIndex valueColumn start
      finish).toOption.join.isSome = true := by
    decide +kernel
  have lost : ((run onePoint misnamed).warehouse.lastValue Instrument.dowJonesIndex valueColumn
      start finish).toOption.join.isSome = false := by
    decide +kernel
  rw [← same, lost] at held
  cases held

end Seed
end CompositeIndex
