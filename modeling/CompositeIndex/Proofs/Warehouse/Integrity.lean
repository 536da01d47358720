import CompositeIndex.Proofs.Warehouse.History
import CompositeIndex.Text.Names

/-!
# Referential integrity

No table of the warehouse refers to another one by a constraint. `Consistent` says in terms of
lookups what holds between the tables nevertheless, and every step preserves it. `Integrity`
says the same about the rows, and adds that no row occurs twice and that listings are in
order.
-/

namespace CompositeIndex
namespace Warehouse

/-- What holds between the tables, in terms of lookups. -/
structure Consistent (warehouse : Warehouse) : Prop where
  /-- A series declares a column. -/
  declares_of_series : ∀ name, warehouse.kind? name = some .series →
    ∃ column, warehouse.declares name column = true
  /-- What declares a column is a series. -/
  series_of_declares : ∀ name column, warehouse.declares name column = true →
    warehouse.kind? name = some .series
  /-- A point belongs to a declared column. -/
  declares_of_value : ∀ entry column micro value,
    warehouse.valueAt? entry column micro = some value →
      warehouse.declares entry column = true
  /-- The value of a point is finite. -/
  finite_of_value : ∀ entry column micro value,
    warehouse.valueAt? entry column micro = some value → value.isFinite = true
  /-- What carries a tag is an entry. -/
  kind_of_carries : ∀ entry tag, warehouse.carries entry tag → warehouse.kind? entry ≠ none

theorem consistent_blank (versions : List String) : (blank versions).Consistent := by
  constructor <;> simp

namespace Consistent

variable {warehouse : Warehouse}

theorem replaceSeries
    (consistent : warehouse.Consistent)
    (name : String)
    {columns : List String}
    (nonempty : columns ≠ []) :
    (warehouse.replaceSeries name columns).Consistent where
  declares_of_series := by
    intro other series
    simp only [declares_replaceSeries]
    by_cases same : name = other
    · obtain ⟨column, listed⟩ := List.exists_mem_of_ne_nil columns nonempty
      exact ⟨column, by simpa [same] using listed⟩
    · rw [kind?_replaceSeries, if_neg same] at series
      simpa [same] using consistent.declares_of_series other series
  series_of_declares := by
    intro other column declared
    rw [declares_replaceSeries] at declared
    rw [kind?_replaceSeries]
    by_cases same : name = other
    · rw [if_pos same]
    · rw [if_neg same] at declared ⊢
      exact consistent.series_of_declares other column declared
  declares_of_value := by
    intro entry column micro value found
    rw [valueAt?_replaceSeries] at found
    rw [declares_replaceSeries]
    by_cases same : name = entry
    · rw [if_pos same] at found
      cases found
    · rw [if_neg same] at found ⊢
      exact consistent.declares_of_value entry column micro value found
  finite_of_value := by
    intro entry column micro value found
    rw [valueAt?_replaceSeries] at found
    split at found
    · cases found
    · exact consistent.finite_of_value entry column micro value found
  kind_of_carries := by
    intro entry tag carried
    rw [carries_replaceSeries] at carried
    rw [kind?_replaceSeries, if_neg (fun equal => carried.1 equal.symm)]
    exact consistent.kind_of_carries entry tag carried.2

theorem deleteEntry
    (consistent : warehouse.Consistent)
    (name : String) :
    (warehouse.deleteEntry name).Consistent where
  declares_of_series := by
    intro other series
    rw [kind?_deleteEntry] at series
    split at series
    · cases series
    · rename_i different
      obtain ⟨column, declared⟩ := consistent.declares_of_series other series
      exact ⟨column,
        (declares_deleteEntry ..).mpr ⟨fun equal => different equal.symm, declared⟩⟩
  series_of_declares := by
    intro other column declared
    obtain ⟨different, declared⟩ := (declares_deleteEntry ..).mp declared
    rw [kind?_deleteEntry, if_neg (fun equal => different equal.symm)]
    exact consistent.series_of_declares other column declared
  declares_of_value := by
    intro entry column micro value found
    rw [valueAt?_deleteEntry] at found
    split at found
    · cases found
    · rename_i different
      exact (declares_deleteEntry ..).mpr ⟨fun equal => different equal.symm,
        consistent.declares_of_value entry column micro value found⟩
  finite_of_value := by
    intro entry column micro value found
    rw [valueAt?_deleteEntry] at found
    split at found
    · cases found
    · exact consistent.finite_of_value entry column micro value found
  kind_of_carries := by
    intro entry tag carried
    rw [carries_deleteEntry] at carried
    rw [kind?_deleteEntry, if_neg (fun equal => carried.1 equal.symm)]
    exact consistent.kind_of_carries entry tag carried.2

/-- Attaching a tag changes no kind other than that of a tag that did not exist. -/
theorem insertAttachment
    (consistent : warehouse.Consistent)
    {entry tag : String}
    (found : warehouse.kind? entry ≠ none)
    (notSeries : warehouse.kind? tag ≠ some .series) :
    (warehouse.insertAttachment entry tag).Consistent where
  declares_of_series := by
    intro other series
    rw [kind?_insertAttachment] at series
    split at series
    · cases kind : warehouse.kind? tag with
      | none => simp [kind] at series
      | some known =>
          rw [kind, Option.getD_some] at series
          exact absurd (kind.trans series) notSeries
    · exact consistent.declares_of_series other series
  series_of_declares := by
    intro other column declared
    have series := consistent.series_of_declares other column declared
    rw [kind?_insertAttachment, if_neg]
    · exact series
    · rintro rfl
      exact notSeries series
  declares_of_value := consistent.declares_of_value
  finite_of_value := consistent.finite_of_value
  kind_of_carries := by
    intro name other carried
    rw [kind?_insertAttachment]
    split
    · simp
    · rw [carries_insertAttachment] at carried
      rcases carried with ⟨rfl, _⟩ | carried
      · exact found
      · exact consistent.kind_of_carries name other carried

theorem insertPoint
    (consistent : warehouse.Consistent)
    {entry column : String}
    {sample : Sample}
    (finite : sample.value.isFinite = true)
    (declared : warehouse.declares entry column = true) :
    (warehouse.insertPoint entry column sample).Consistent where
  declares_of_series := consistent.declares_of_series
  series_of_declares := consistent.series_of_declares
  declares_of_value := by
    intro name other micro value found
    rw [valueAt?_insertPoint] at found
    split at found
    · rename_i same
      obtain ⟨rfl, rfl, _⟩ := same
      exact declared
    · exact consistent.declares_of_value name other micro value found
  finite_of_value := by
    intro name other micro value found
    rw [valueAt?_insertPoint] at found
    split at found
    · cases found
      exact finite
    · exact consistent.finite_of_value name other micro value found
  kind_of_carries := consistent.kind_of_carries

theorem insertPoints
    (consistent : warehouse.Consistent)
    {entry column : String}
    {samples : List Sample}
    (finite : ∀ sample ∈ samples, sample.value.isFinite = true)
    (declared : warehouse.declares entry column = true) :
    (warehouse.insertPoints entry column samples).Consistent := by
  induction samples generalizing warehouse with
  | nil => exact consistent
  | cons sample samples inductionHypothesis =>
      rw [insertPoints_cons]
      have first := finite sample List.mem_cons_self
      exact inductionHypothesis (consistent.insertPoint first declared)
        (fun other member => finite other (List.mem_cons_of_mem _ member)) declared

/-- A step preserves consistency. -/
theorem step
    {call : Call}
    {changed : Warehouse}
    (consistent : warehouse.Consistent)
    (step : Step warehouse call changed) :
    changed.Consistent := by
  cases step with
  | created name columns nonempty notTag => exact consistent.replaceSeries name nonempty
  | missed name missing => exact consistent
  | removed name found => exact consistent.deleteEntry name
  | attached entry tag found notSeries => exact consistent.insertAttachment found notSeries
  | idled entry column => exact consistent
  | ingested entry column samples finite series declared =>
      exact consistent.insertPoints finite declared

end Consistent

/-- The tables are consistent after every history. -/
theorem consistent_afterAll (calls : List Call) (versions : List String) :
    (afterAll calls (blank versions)).Consistent :=
  afterAll_induction (fun _ _ _ consistent step => consistent.step step) calls
    (consistent_blank versions)

/-! ## Listings -/

/-- Of two attachments to one tag, the smaller one has the smaller entry. -/
theorem compare_entry_of_compare
    {first second : Attachment}
    (sameTag : first.tag = second.tag)
    (smaller : compare first second = .lt) :
    compare first.entry second.entry = .lt := by
  change (compare first.entry second.entry).then (compare first.tag second.tag) = .lt
    at smaller
  rw [sameTag, Std.compare_self] at smaller
  cases order : compare first.entry second.entry with
  | lt => rfl
  | eq => simp [order] at smaller
  | gt => simp [order] at smaller

theorem mem_carriers_iff (warehouse : Warehouse) (tag name : String) :
    name ∈ warehouse.carriers tag ↔ warehouse.carries name tag := by
  simp only [carriers, List.mem_map, List.mem_filter, Std.ExtTreeSet.mem_toList, beq_iff_eq]
  constructor
  · rintro ⟨⟨entry, other⟩, ⟨attached, rfl⟩, rfl⟩
    exact attached
  · intro attached
    exact ⟨⟨name, tag⟩, ⟨attached, rfl⟩, rfl⟩

theorem ascending_carriers (warehouse : Warehouse) (tag : String) :
    Names.Ascending (warehouse.carriers tag) := by
  have ordered : (warehouse.attachments.toList.filter fun attachment =>
      attachment.tag == tag).Pairwise fun first second => compare first second = .lt :=
    Std.ExtTreeSet.ordered_toList.filter _
  refine List.pairwise_map.mpr (ordered.imp_of_mem ?_)
  intro first second firstListed secondListed smaller
  have firstTag : first.tag = tag := by simpa using (List.mem_filter.mp firstListed).2
  have secondTag : second.tag = tag := by simpa using (List.mem_filter.mp secondListed).2
  exact compare_entry_of_compare (firstTag.trans secondTag.symm) smaller

section

variable {warehouse : Warehouse} {tag : String}

/-- A tag has a listing if it exists, and lists what carries it. -/
theorem entriesByTag_eq_ok_iff (names : List String) :
    warehouse.entriesByTag tag = .ok names ↔
      warehouse.kind? tag = some .tag ∧ Names.Ascending names ∧
        ∀ name, name ∈ names ↔ warehouse.carries name tag := by
  unfold entriesByTag
  split
  · next isTag =>
    rw [Except.ok.injEq, and_iff_right isTag]
    constructor
    · rintro rfl
      exact ⟨warehouse.ascending_carriers tag, warehouse.mem_carriers_iff tag⟩
    · rintro ⟨ascending, members⟩
      refine (warehouse.ascending_carriers tag).ext ascending fun name => ?_
      rw [mem_carriers_iff, members]
  · next notTag => simp [notTag]

theorem entriesByTag_of_missing (missing : warehouse.kind? tag = none) :
    warehouse.entriesByTag tag = .error (.unknownTag tag) := by
  rw [entriesByTag, if_neg (by simp [missing])]

end

/-! ## Rows -/

/-- What holds of the rows of the tables. -/
structure Integrity (warehouse : Warehouse) : Prop where
  /-- An entry occurs once, with one kind. -/
  entries_nodup : (warehouse.entries.toList.map (·.1)).Nodup
  /-- A series declares at least one column. -/
  series_declares : ∀ name, (name, EntryKind.series) ∈ warehouse.entries.toList →
    ∃ column, ⟨name, column⟩ ∈ warehouse.columns.toList
  /-- Only series have columns. -/
  column_of_series : ∀ key ∈ warehouse.columns.toList,
    (key.entry, EntryKind.series) ∈ warehouse.entries.toList
  /-- A point belongs to a declared column of an existing series. -/
  point_declared : ∀ point ∈ warehouse.points.toList,
    (point.1.entry, EntryKind.series) ∈ warehouse.entries.toList ∧
      ⟨point.1.entry, point.1.column⟩ ∈ warehouse.columns.toList
  /-- The value of a point is finite. -/
  point_finite : ∀ point ∈ warehouse.points.toList, point.2.isFinite = true
  /-- A column has one point in a microsecond. -/
  points_nodup : (warehouse.points.toList.map (·.1)).Nodup
  /-- What carries a tag exists. -/
  attachment_entry : ∀ attachment ∈ warehouse.attachments.toList,
    ∃ kind, (attachment.entry, kind) ∈ warehouse.entries.toList
  /-- The listing of a tag is an ascending list of existing entries. -/
  listing : ∀ tag, (tag, EntryKind.tag) ∈ warehouse.entries.toList →
    ∃ names, warehouse.entriesByTag tag = .ok names ∧ Names.Ascending names ∧
      ∀ name ∈ names, ∃ kind, (name, kind) ∈ warehouse.entries.toList

theorem nodup_keys
    {κ ν : Type}
    [Ord κ]
    [Std.TransOrd κ]
    (table : Std.ExtTreeMap κ ν) :
    (table.toList.map (·.1)).Nodup := by
  refine List.pairwise_map.mpr (Std.ExtTreeMap.distinct_keys_toList.imp ?_)
  intro first second different equal
  exact different (by rw [equal, Std.compare_self])

theorem mem_entries_iff (warehouse : Warehouse) (name : String) (kind : EntryKind) :
    (name, kind) ∈ warehouse.entries.toList ↔ warehouse.kind? name = some kind :=
  Std.ExtTreeMap.mem_toList_iff_getElem?_eq_some

theorem mem_columns_iff (warehouse : Warehouse) (entry column : String) :
    ⟨entry, column⟩ ∈ warehouse.columns.toList ↔ warehouse.declares entry column = true := by
  rw [Std.ExtTreeSet.mem_toList, declares_iff]

theorem mem_points_iff (warehouse : Warehouse) (key : PointKey) (value : Float) :
    (key, value) ∈ warehouse.points.toList ↔
      warehouse.valueAt? key.entry key.column key.micro = some value :=
  Std.ExtTreeMap.mem_toList_iff_getElem?_eq_some

/-- Consistent tables list existing entries only. -/
theorem Consistent.integrity
    {warehouse : Warehouse}
    (consistent : warehouse.Consistent) :
    warehouse.Integrity where
  entries_nodup := nodup_keys warehouse.entries
  series_declares := by
    simpa only [mem_entries_iff, mem_columns_iff] using consistent.declares_of_series
  column_of_series := by
    rintro ⟨entry, column⟩ declared
    exact (mem_entries_iff ..).mpr
      (consistent.series_of_declares entry column ((mem_columns_iff ..).mp declared))
  point_declared := by
    rintro ⟨key, value⟩ stored
    have declared := consistent.declares_of_value _ _ _ _ ((mem_points_iff ..).mp stored)
    exact ⟨(mem_entries_iff ..).mpr (consistent.series_of_declares _ _ declared),
      (mem_columns_iff ..).mpr declared⟩
  point_finite := by
    rintro ⟨key, value⟩ stored
    exact consistent.finite_of_value _ _ _ _ ((mem_points_iff ..).mp stored)
  points_nodup := nodup_keys warehouse.points
  attachment_entry := by
    rintro ⟨entry, tag⟩ attached
    have carried : warehouse.carries entry tag := Std.ExtTreeSet.mem_toList.mp attached
    simpa only [mem_entries_iff] using
      Option.ne_none_iff_exists'.mp (consistent.kind_of_carries entry tag carried)
  listing := by
    intro tag known
    rw [mem_entries_iff] at known
    refine ⟨warehouse.carriers tag, by simp [entriesByTag, known],
      warehouse.ascending_carriers tag, ?_⟩
    intro name carried
    have kind := consistent.kind_of_carries name tag ((mem_carriers_iff ..).mp carried)
    simpa only [mem_entries_iff] using Option.ne_none_iff_exists'.mp kind

/-- Whatever calls are made on an empty warehouse, and whether or not they succeed, the rows
of its tables fit together. -/
theorem integrity_afterAll (calls : List Call) (versions : List String) :
    (afterAll calls (blank versions)).Integrity :=
  (consistent_afterAll calls versions).integrity

end Warehouse
end CompositeIndex
