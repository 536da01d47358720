import CompositeIndex.Proofs.Warehouse.LastValue

/-!
# Planting a series

A seeded series is planted into the tables: whatever stood under its name is replaced by a
series with a value column, which carries one tag and holds the points of its samples. The tag
itself is listed under `@tags`. `IsPlanted` says of the tables before and after several series
have been planted what every lookup finds, for the planted names and for all others.
-/

namespace CompositeIndex

namespace Tag

/-- The text of a tag can be used as a name. -/
theorem isAllBlank_text (tag : Tag) : Text.isAllBlank tag.text = false := by
  have solid : Text.isBlank mark = false := by decide
  simp [Text.isAllBlank, text, solid]

end Tag

namespace Seed

/-- A series that is seeded, with the tag that it carries and the samples of its values. -/
structure Series where
  name : String
  tag : Tag
  samples : List Warehouse.Sample := []

/-- The name can be that of a series, and cannot be mistaken for a tag. -/
structure IsPlainName (name : String) : Prop where
  named : Text.isAllBlank name = false
  noTag : ∀ tag : Tag, name ≠ tag.text

end Seed

namespace Warehouse

/-- The tables with a seeded series in place of what stood under its name. -/
def plant (warehouse : Warehouse) (series : Seed.Series) : Warehouse :=
  (((warehouse.replaceSeries series.name [valueColumn]).insertAttachment series.name
    series.tag.text).insertAttachment series.tag.text Tag.tags.text).insertPoints series.name
      valueColumn series.samples

/-- The tables with several series planted one after the other. -/
def plantAll (warehouse : Warehouse) (series : List Seed.Series) : Warehouse :=
  series.foldl plant warehouse

theorem plantAll_cons (warehouse : Warehouse) (first : Seed.Series) (others : List Seed.Series) :
    warehouse.plantAll (first :: others) = (warehouse.plant first).plantAll others := rfl

/-! ## Lookups -/

section

variable (warehouse : Warehouse) {series : Seed.Series}

theorem kind?_plant (plain : Seed.IsPlainName series.name) (name : String) :
    (warehouse.plant series).kind? name =
      if name = series.name then some .series
      else if name = series.tag.text ∨ name = Tag.tags.text then
        some ((warehouse.kind? name).getD .tag)
      else warehouse.kind? name := by
  have ofTag := plain.noTag series.tag
  have ofTags := plain.noTag Tag.tags
  simp only [plant, kind?_insertPoints, kind?_insertAttachment, kind?_replaceSeries]
  grind

theorem declares_plant (entry column : String) :
    (warehouse.plant series).declares entry column = true ↔
      if entry = series.name then column = valueColumn
      else warehouse.declares entry column = true := by
  simp only [plant, declares_insertPoints, declares_insertAttachment, declares_replaceSeries,
    List.mem_singleton]
  grind

theorem valueAt?_plant (entry column : String) (micro : Int) :
    (warehouse.plant series).valueAt? entry column micro =
      if entry = series.name then
        ((blank []).insertPoints entry valueColumn series.samples).valueAt? entry column micro
      else warehouse.valueAt? entry column micro := by
  simp only [plant, valueAt?_insertPoints, valueAt?_insertAttachment, valueAt?_replaceSeries,
    valueAt?_blank]
  grind

theorem carries_plant (plain : Seed.IsPlainName series.name) (entry tag : String) :
    (warehouse.plant series).carries entry tag ↔
      if entry = series.name then tag = series.tag.text
      else entry = series.tag.text ∧ tag = Tag.tags.text ∨ warehouse.carries entry tag := by
  have ofTag := plain.noTag series.tag
  simp only [plant, carries_insertPoints, carries_insertAttachment, carries_replaceSeries]
  grind

@[simp] theorem schema_plant :
    (warehouse.plant series).schema = warehouse.schema := by
  have ofPoints : ∀ (tables : Warehouse) samples,
      (tables.insertPoints series.name valueColumn samples).schema = tables.schema := by
    intro tables samples
    induction samples generalizing tables with
    | nil => rfl
    | cons sample samples inductionHypothesis => exact inductionHypothesis _
  exact ofPoints _ _

end

/-! ## Several series -/

/-- What becomes of the tables when series are planted. -/
structure IsPlanted (series : List Seed.Series) (before after : Warehouse) : Prop where
  kind : ∀ planted ∈ series, after.kind? planted.name = some .series
  /-- Exactly the value column is declared. -/
  columns : ∀ planted ∈ series, ∀ column,
    after.declares planted.name column = true ↔ column = valueColumn
  /-- There are exactly the points that the samples make in an empty warehouse. -/
  points : ∀ planted ∈ series, ∀ column micro,
    after.valueAt? planted.name column micro =
      ((blank []).insertPoints planted.name valueColumn planted.samples).valueAt? planted.name
        column micro
  /-- Exactly one tag is carried. -/
  tags : ∀ planted ∈ series, ∀ tag,
    after.carries planted.name tag ↔ tag = planted.tag.text
  tagKinds : ∀ planted ∈ series,
    after.kind? planted.tag.text = some .tag ∧ after.kind? Tag.tags.text = some .tag
  /-- The tags in use are listed. -/
  listed : ∀ planted ∈ series, after.carries planted.tag.text Tag.tags.text
  otherKinds : ∀ name,
    (∀ planted ∈ series,
      name ≠ planted.name ∧ name ≠ planted.tag.text ∧ name ≠ Tag.tags.text) →
    after.kind? name = before.kind? name
  otherColumns : ∀ entry, (∀ planted ∈ series, entry ≠ planted.name) → ∀ column,
    after.declares entry column = before.declares entry column
  otherPoints : ∀ entry, (∀ planted ∈ series, entry ≠ planted.name) → ∀ column micro,
    after.valueAt? entry column micro = before.valueAt? entry column micro
  otherTags : ∀ entry tag,
    (∀ planted ∈ series,
      entry ≠ planted.name ∧ ¬(entry = planted.tag.text ∧ tag = Tag.tags.text)) →
    (after.carries entry tag ↔ before.carries entry tag)
  schema : after.schema = before.schema

/-- The series can be planted: neither its name nor a tag is in use for the other kind of
entry, and its samples can be kept. -/
structure Admits (warehouse : Warehouse) (series : Seed.Series) : Prop where
  notTag : warehouse.kind? series.name ≠ some .tag
  notSeries : warehouse.kind? series.tag.text ≠ some .series
  tagsNotSeries : warehouse.kind? Tag.tags.text ≠ some .series
  finite : ∀ sample ∈ series.samples, sample.value.isFinite = true
  inUtc : ∀ sample ∈ series.samples, sample.timestamp.toUtc?.isSome = true

/-- One more series is planted. -/
theorem IsPlanted.plant
    {series : List Seed.Series}
    {before middle : Warehouse}
    (planted : IsPlanted series before middle)
    {next : Seed.Series}
    (plain : Seed.IsPlainName next.name)
    (plainBefore : ∀ earlier ∈ series, Seed.IsPlainName earlier.name)
    (isNew : ∀ earlier ∈ series, earlier.name ≠ next.name)
    (admits : middle.Admits next) :
    IsPlanted (series ++ [next]) before (middle.plant next) where
  kind := by
    refine List.forall_mem_append.mpr ⟨fun earlier member => ?_, ?_⟩
    · have ofTag := (plainBefore earlier member).noTag
      rw [kind?_plant _ plain, if_neg (isNew earlier member),
        if_neg (not_or.mpr ⟨ofTag _, ofTag _⟩), planted.kind earlier member]
    · refine List.forall_mem_singleton.mpr ?_
      rw [kind?_plant _ plain, if_pos rfl]
  columns := by
    refine List.forall_mem_append.mpr ⟨fun earlier member column => ?_, ?_⟩
    · rw [declares_plant, if_neg (isNew earlier member), planted.columns earlier member]
    · refine List.forall_mem_singleton.mpr fun column => ?_
      rw [declares_plant, if_pos rfl]
  points := by
    refine List.forall_mem_append.mpr ⟨fun earlier member column micro => ?_, ?_⟩
    · rw [valueAt?_plant, if_neg (isNew earlier member), planted.points earlier member]
    · refine List.forall_mem_singleton.mpr fun column micro => ?_
      rw [valueAt?_plant, if_pos rfl]
  tags := by
    refine List.forall_mem_append.mpr ⟨fun earlier member tag => ?_, ?_⟩
    · have noTag := (plainBefore earlier member).noTag next.tag
      rw [carries_plant _ plain, if_neg (isNew earlier member), planted.tags earlier member]
      simp [noTag]
    · refine List.forall_mem_singleton.mpr fun tag => ?_
      rw [carries_plant _ plain, if_pos rfl]
  tagKinds := by
    have kept : ∀ tag : Tag, middle.kind? tag.text = some .tag →
        (middle.plant next).kind? tag.text = some .tag := by
      intro tag isTag
      rw [kind?_plant _ plain, if_neg (Ne.symm (plain.noTag tag)), isTag]
      simp
    have made : ∀ tag : Tag, middle.kind? tag.text ≠ some .series →
        (tag = next.tag ∨ tag = Tag.tags) →
        (middle.plant next).kind? tag.text = some .tag := by
      intro tag notSeries isUsed
      rw [kind?_plant _ plain, if_neg (Ne.symm (plain.noTag tag)), if_pos (by grind)]
      cases kind : middle.kind? tag.text with
      | none => rfl
      | some known => cases known <;> simp_all
    refine List.forall_mem_append.mpr ⟨fun earlier member => ?_, ?_⟩
    · obtain ⟨isTag, tagsIsTag⟩ := planted.tagKinds earlier member
      exact ⟨kept _ isTag, kept _ tagsIsTag⟩
    · refine List.forall_mem_singleton.mpr ⟨?_, ?_⟩
      · exact made next.tag admits.notSeries (.inl rfl)
      · exact made Tag.tags admits.tagsNotSeries (.inr rfl)
  listed := by
    refine List.forall_mem_append.mpr ⟨fun earlier member => ?_, ?_⟩
    · rw [carries_plant _ plain, if_neg (Ne.symm (plain.noTag _))]
      exact .inr (planted.listed earlier member)
    · refine List.forall_mem_singleton.mpr ?_
      rw [carries_plant _ plain, if_neg (Ne.symm (plain.noTag _))]
      exact .inl ⟨rfl, rfl⟩
  otherKinds := by
    intro name others
    obtain ⟨othersBefore, otherNext⟩ := List.forall_mem_append.mp others
    obtain ⟨notName, notTag, notTags⟩ := List.forall_mem_singleton.mp otherNext
    rw [kind?_plant _ plain, if_neg notName, if_neg (not_or.mpr ⟨notTag, notTags⟩),
      planted.otherKinds name othersBefore]
  otherColumns := by
    intro entry others column
    obtain ⟨othersBefore, otherNext⟩ := List.forall_mem_append.mp others
    have notName := otherNext next List.mem_cons_self
    rw [Bool.eq_iff_iff, declares_plant, if_neg notName,
      planted.otherColumns entry othersBefore]
  otherPoints := by
    intro entry others column micro
    obtain ⟨othersBefore, otherNext⟩ := List.forall_mem_append.mp others
    have notName := otherNext next List.mem_cons_self
    rw [valueAt?_plant, if_neg notName, planted.otherPoints entry othersBefore]
  otherTags := by
    intro entry tag others
    obtain ⟨othersBefore, otherNext⟩ := List.forall_mem_append.mp others
    obtain ⟨notName, notListed⟩ := List.forall_mem_singleton.mp otherNext
    rw [carries_plant _ plain, if_neg notName, or_iff_right notListed,
      planted.otherTags entry tag othersBefore]
  schema := (schema_plant middle).trans planted.schema

theorem isPlanted_nil (warehouse : Warehouse) : IsPlanted [] warehouse warehouse where
  kind := nofun
  columns := nofun
  points := nofun
  tags := nofun
  tagKinds := nofun
  listed := nofun
  otherKinds := fun _ _ => rfl
  otherColumns := fun _ _ _ => rfl
  otherPoints := fun _ _ _ _ => rfl
  otherTags := fun _ _ _ => Iff.rfl
  schema := rfl

/-- Where one series has been planted, another one can be planted if it could be before. -/
theorem admits_plant_iff
    (warehouse : Warehouse)
    {series other : Seed.Series}
    (plain : Seed.IsPlainName series.name)
    (plainOther : Seed.IsPlainName other.name)
    (admits : warehouse.Admits series) :
    (warehouse.plant series).Admits other ↔ warehouse.Admits other := by
  have sameTagKind : ∀ tag : Tag, (warehouse.plant series).kind? tag.text ≠ some .series ↔
      warehouse.kind? tag.text ≠ some .series := by
    intro tag
    have notName := Ne.symm (plain.noTag tag)
    rw [kind?_plant _ plain, if_neg notName]
    split
    · cases warehouse.kind? tag.text <;> simp
    · rfl
  have sameNameKind : (warehouse.plant series).kind? other.name ≠ some .tag ↔
      warehouse.kind? other.name ≠ some .tag := by
    have notTag := not_or.mpr ⟨plainOther.noTag series.tag, plainOther.noTag Tag.tags⟩
    rw [kind?_plant _ plain, if_neg notTag]
    split
    · next same => simp [same, admits.notTag]
    · rfl
  constructor
  · rintro ⟨notTag, notSeries, tagsNotSeries, finite, inUtc⟩
    exact ⟨sameNameKind.mp notTag, (sameTagKind _).mp notSeries,
      (sameTagKind _).mp tagsNotSeries, finite, inUtc⟩
  · rintro ⟨notTag, notSeries, tagsNotSeries, finite, inUtc⟩
    exact ⟨sameNameKind.mpr notTag, (sameTagKind _).mpr notSeries,
      (sameTagKind _).mpr tagsNotSeries, finite, inUtc⟩

theorem admits_plantAll_iff
    (series : List Seed.Series)
    (plain : ∀ planted ∈ series, Seed.IsPlainName planted.name)
    {warehouse : Warehouse}
    (admits : ∀ planted ∈ series, warehouse.Admits planted)
    {other : Seed.Series}
    (plainOther : Seed.IsPlainName other.name) :
    (warehouse.plantAll series).Admits other ↔ warehouse.Admits other := by
  induction series generalizing warehouse with
  | nil => exact Iff.rfl
  | cons first series inductionHypothesis =>
      obtain ⟨plainFirst, plainRest⟩ := List.forall_mem_cons.mp plain
      obtain ⟨admitsFirst, admitsRest⟩ := List.forall_mem_cons.mp admits
      have admitsAfter : ∀ planted ∈ series, (warehouse.plant first).Admits planted :=
        fun planted member =>
          (warehouse.admits_plant_iff plainFirst (plainRest planted member) admitsFirst).mpr
            (admitsRest planted member)
      exact (inductionHypothesis plainRest admitsAfter).trans
        (warehouse.admits_plant_iff plainFirst plainOther admitsFirst)

/-- Series are planted one after the other, each where it can be. -/
theorem isPlanted_plantAll
    (series : List Seed.Series)
    (plain : ∀ planted ∈ series, Seed.IsPlainName planted.name)
    (distinct : (series.map Seed.Series.name).Nodup)
    {warehouse : Warehouse}
    (admits : ∀ planted ∈ series, warehouse.Admits planted) :
    IsPlanted series warehouse (warehouse.plantAll series) := by
  -- from the end, since what has been planted has to outlast the next series
  induction series using List.reverseRecOn with
  | nil => exact isPlanted_nil warehouse
  | append_singleton series next inductionHypothesis =>
      obtain ⟨plainBefore, plainNext⟩ := List.forall_mem_append.mp plain
      obtain ⟨admitsBefore, admitsNext⟩ := List.forall_mem_append.mp admits
      rw [List.forall_mem_singleton] at plainNext admitsNext
      rw [List.map_append, List.map_singleton, List.nodup_append] at distinct
      obtain ⟨distinctBefore, _, disjoint⟩ := distinct
      have middle := inductionHypothesis plainBefore distinctBefore admitsBefore
      rw [plantAll, List.foldl_append]
      refine middle.plant plainNext plainBefore ?_
        ((admits_plantAll_iff series plainBefore admitsBefore plainNext).mpr admitsNext)
      intro earlier member same
      exact disjoint _ (List.mem_map_of_mem member) _ List.mem_cons_self same

/-- In an empty warehouse, nothing carries a tag but what has been planted. -/
theorem IsPlanted.carries_iff
    {series : List Seed.Series}
    {versions : List String}
    {after : Warehouse}
    (planted : IsPlanted series (blank versions) after)
    (entry tag : String) :
    after.carries entry tag ↔
      ∃ earlier ∈ series, entry = earlier.name ∧ tag = earlier.tag.text ∨
        entry = earlier.tag.text ∧ tag = Tag.tags.text := by
  constructor
  · intro carried
    by_contra others
    push Not at others
    by_cases isName : ∃ earlier ∈ series, entry = earlier.name
    · obtain ⟨earlier, member, rfl⟩ := isName
      exact (others earlier member).1 rfl ((planted.tags earlier member tag).mp carried)
    · push Not at isName
      refine not_carries_blank versions entry tag ((planted.otherTags entry tag ?_).mp carried)
      exact fun earlier member =>
        ⟨isName earlier member, not_and.mpr (others earlier member).2⟩
  · rintro ⟨earlier, member, ⟨rfl, rfl⟩ | ⟨rfl, rfl⟩⟩
    · exact (planted.tags earlier member _).mpr rfl
    · exact planted.listed earlier member

/-! ## Planting again -/

/-- Planting the same series again changes nothing. -/
theorem IsPlanted.again
    {series : List Seed.Series}
    {before after again : Warehouse}
    (planted : IsPlanted series before after)
    (replanted : IsPlanted series after again) :
    again = after := by
  refine ext_of_lookups ?kinds ?columns ?points ?tags replanted.schema
  case kinds =>
    intro name
    by_cases used : ∀ earlier ∈ series,
        name ≠ earlier.name ∧ name ≠ earlier.tag.text ∧ name ≠ Tag.tags.text
    · exact replanted.otherKinds name used
    · push Not at used
      obtain ⟨earlier, member, isUsed⟩ := used
      have firstTags := planted.tagKinds earlier member
      have secondTags := replanted.tagKinds earlier member
      by_cases isName : name = earlier.name
      · rw [isName, planted.kind earlier member, replanted.kind earlier member]
      · by_cases isTag : name = earlier.tag.text
        · rw [isTag, firstTags.1, secondTags.1]
        · rw [isUsed isName isTag, firstTags.2, secondTags.2]
  case columns =>
    intro entry column
    by_cases others : ∀ earlier ∈ series, entry ≠ earlier.name
    · exact replanted.otherColumns entry others column
    · push Not at others
      obtain ⟨earlier, member, rfl⟩ := others
      rw [Bool.eq_iff_iff, planted.columns earlier member, replanted.columns earlier member]
  case points =>
    intro entry column micro
    by_cases others : ∀ earlier ∈ series, entry ≠ earlier.name
    · exact replanted.otherPoints entry others column micro
    · push Not at others
      obtain ⟨earlier, member, rfl⟩ := others
      rw [planted.points earlier member, replanted.points earlier member]
  case tags =>
    intro entry tag
    by_cases others : ∀ earlier ∈ series,
        entry ≠ earlier.name ∧ ¬(entry = earlier.tag.text ∧ tag = Tag.tags.text)
    · exact replanted.otherTags entry tag others
    · push Not at others
      obtain ⟨earlier, member, isOther⟩ := others
      by_cases isName : entry = earlier.name
      · rw [isName, planted.tags earlier member, replanted.tags earlier member]
      · obtain ⟨rfl, rfl⟩ := isOther isName
        exact iff_of_true (replanted.listed earlier member) (planted.listed earlier member)

end Warehouse
end CompositeIndex
