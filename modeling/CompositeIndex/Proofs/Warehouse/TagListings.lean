import Mathlib.Data.List.Sort
import CompositeIndex.Proofs.Warehouse.Attachments

/-!
# What each call does to the listing of a tag

A tag is an entry, so that one name can stand on both sides of the table of attachments. Every
call that succeeds turns the listing of an existing tag into another one that is told by the call
and the old listing alone; `Call.relist` says which. Only the removal of the tag itself ends its
listing. Tags that exist are attached to entries that exist in any order.
-/

namespace CompositeIndex

namespace Names

/-- The names with one more in its sorted place; a name that is there already stays alone. -/
def insert (name : String) (names : List String) : List String :=
  if name ∈ names then names
  else names.orderedInsert (fun first second => compare first second = .lt) name

@[simp] theorem mem_insert_iff (other name : String) (names : List String) :
    other ∈ insert name names ↔ other = name ∨ other ∈ names := by
  unfold insert
  split
  · next listed =>
    constructor
    · exact .inr
    · rintro (rfl | member)
      · exact listed
      · exact member
  · exact List.mem_orderedInsert _

theorem ascending_insert {names : List String} (ascending : Ascending names) (name : String) :
    Ascending (insert name names) := by
  unfold insert
  split
  · exact ascending
  · next absent =>
    induction names with
    | nil => exact List.pairwise_singleton _ name
    | cons first names inductionHypothesis =>
        obtain ⟨smallest, ascendingRest⟩ := List.pairwise_cons.mp ascending
        obtain ⟨notFirst, absentRest⟩ := not_or.mp (List.mem_cons.not.mp absent)
        cases order : compare name first with
        | lt =>
            rw [List.orderedInsert_cons, if_pos order]
            refine List.pairwise_cons.mpr ⟨?_, ascending⟩
            intro other member
            rcases List.mem_cons.mp member with rfl | member
            · exact order
            · exact Std.TransCmp.lt_trans order (smallest other member)
        | eq => exact absurd (Std.compare_eq_iff_eq.mp order) notFirst
        | gt =>
            rw [List.orderedInsert_cons, if_neg (by rw [order]; decide)]
            refine List.pairwise_cons.mpr ⟨?_, inductionHypothesis ascendingRest absentRest⟩
            intro other member
            rcases (List.mem_orderedInsert _).mp member with rfl | member
            · exact Std.OrientedCmp.lt_of_gt order
            · exact smallest other member

end Names

namespace Warehouse

/-! ## One call -/

/-- What a tag lists after a call that succeeds and does not remove the tag itself. -/
def Call.relist (tag : String) (names : List String) : Call → List String
  | .createSeries name _ => names.filter (· ≠ name)
  | .removeEntry name => names.filter (· ≠ name)
  | .attachTag entry other => if other = tag then Names.insert entry names else names
  | .ingest _ _ _ => names

theorem Call.mem_relist_iff (call : Call) (tag name : String) (names : List String) :
    name ∈ call.relist tag names ↔
      call = .attachTag name tag ∨ name ∈ names ∧ ¬call.Resets name := by
  cases call with
  | createSeries other columns => simp [relist, Resets, ne_comm]
  | removeEntry other => simp [relist, Resets, ne_comm]
  | attachTag entry other =>
      rw [relist, Resets, not_false_eq_true, and_true, attachTag.injEq]
      split
      · next same => rw [Names.mem_insert_iff, and_iff_left same, eq_comm]
      · next different => rw [or_iff_right (fun equal => different equal.2)]
  | ingest entry column samples => simp [relist, Resets]

theorem Call.ascending_relist
    (call : Call)
    (tag : String)
    {names : List String}
    (ascending : Names.Ascending names) :
    Names.Ascending (call.relist tag names) := by
  cases call with
  | createSeries name columns => exact ascending.filter _
  | removeEntry name => exact ascending.filter _
  | attachTag entry other =>
      rw [relist]
      split
      · exact Names.ascending_insert ascending entry
      · exact ascending
  | ingest entry column samples => exact ascending

variable {warehouse changed : Warehouse} {call : Call}

/-- A tag stays a tag until it is removed. -/
theorem Step.kind?_of_isTag
    {tag : String}
    (step : Step warehouse call changed)
    (isTag : warehouse.kind? tag = some .tag)
    (kept : call ≠ .removeEntry tag) :
    changed.kind? tag = some .tag := by
  cases step with
  | created name columns nonempty notTag =>
      rw [kind?_replaceSeries, if_neg, isTag]
      rintro rfl
      exact notTag isTag
  | missed name missing => exact isTag
  | removed name found =>
      rw [kind?_deleteEntry, if_neg, isTag]
      rintro rfl
      exact kept rfl
  | attached entry other found notSeries =>
      rw [kind?_insertAttachment]
      split
      · next same => rw [same, isTag, Option.getD_some]
      · exact isTag
  | idled entry column => exact isTag
  | ingested entry column samples finite series declared =>
      rw [kind?_insertPoints, isTag]

/-- A tag that has been removed does not exist. -/
theorem Step.kind?_of_removeEntry
    {tag : String}
    (step : Step warehouse (.removeEntry tag) changed) :
    changed.kind? tag = none := by
  cases step with
  | missed name missing => exact missing
  | removed name found => simp

/-- A step makes of the listing of a tag what the call says. -/
theorem Step.entriesByTag_eq
    {tag : String}
    {names : List String}
    (consistent : warehouse.Consistent)
    (step : Step warehouse call changed)
    (listed : warehouse.entriesByTag tag = .ok names)
    (kept : call ≠ .removeEntry tag) :
    changed.entriesByTag tag = .ok (call.relist tag names) := by
  obtain ⟨isTag, ascending, members⟩ := (entriesByTag_eq_ok_iff names).mp listed
  refine (entriesByTag_eq_ok_iff _).mpr
    ⟨step.kind?_of_isTag isTag kept, call.ascending_relist tag ascending, fun name => ?_⟩
  rw [call.mem_relist_iff, members, step.carries_iff consistent]

/-- Attaching a tag answers whether its listing grows. -/
theorem reply_of_attachTag
    {entry tag : String}
    {names : List String}
    {reply : Reply}
    (listed : warehouse.entriesByTag tag = .ok names)
    (succeeds : (Call.attachTag entry tag).perform warehouse = .ok (reply, changed)) :
    reply = .flag (decide (entry ∉ names)) := by
  obtain ⟨_, _, members⟩ := (entriesByTag_eq_ok_iff names).mp listed
  rw [Call.perform] at succeeds
  obtain ⟨isNew, attached, rfl⟩ := (Call.replying_eq_ok_iff ..).mp succeeds
  rw [Reply.flag.injEq, Bool.eq_iff_iff, isNew_iff_of_attachTag attached, decide_eq_true_iff,
    members]

/-! ## Names of entries -/

/-- No entry has a name that holds nothing but blanks. -/
def IsNamed (warehouse : Warehouse) : Prop :=
  ∀ name, warehouse.kind? name ≠ none → Text.isAllBlank name = false

theorem isNamed_blank (versions : List String) : (blank versions).IsNamed := by
  simp [IsNamed]

/-- A call makes no entry of a blank name. -/
theorem IsNamed.perform
    (named : warehouse.IsNamed)
    {reply : Reply}
    (succeeds : call.perform warehouse = .ok (reply, changed)) :
    changed.IsNamed := by
  intro name found
  have step := Step.of_perform succeeds
  cases call with
  | createSeries other columns =>
      rw [Call.perform] at succeeds
      obtain ⟨_, created⟩ := Call.exists_of_replying_eq_ok succeeds
      obtain ⟨checked, rfl⟩ := (createSeries_eq_ok_iff ..).mp created
      rw [kind?_replaceSeries] at found
      split at found
      · next same => exact same ▸ ((checkSeries_eq_ok_iff ..).mp checked).1
      · exact named name found
  | attachTag entry tag =>
      rw [Call.perform] at succeeds
      obtain ⟨_, attached⟩ := Call.exists_of_replying_eq_ok succeeds
      obtain ⟨checked, _, rfl⟩ := (attachTag_eq_ok_iff ..).mp attached
      rw [kind?_insertAttachment] at found
      split at found
      · next same => exact same ▸ ((checkAttachment_eq_ok_iff ..).mp checked).1
      · exact named name found
  | removeEntry other =>
      cases step with
      | missed _ missing => exact named name found
      | removed _ known =>
          rw [kind?_deleteEntry] at found
          split at found
          · exact absurd rfl found
          · exact named name found
  | ingest entry column samples =>
      cases step with
      | idled => exact named name found
      | ingested =>
          rw [kind?_insertPoints] at found
          exact named name found

theorem isNamed_afterAll (calls : List Call) (versions : List String) :
    (afterAll calls (blank versions)).IsNamed := by
  have preserved : ∀ warehouse : Warehouse, warehouse.IsNamed →
      (afterAll calls warehouse).IsNamed := by
    induction calls with
    | nil => exact fun _ named => named
    | cons call calls inductionHypothesis =>
        intro warehouse named
        rw [afterAll_cons]
        apply inductionHypothesis
        unfold Call.after
        split
        · next succeeds => exact named.perform succeeds
        · exact named
  exact preserved _ (isNamed_blank versions)

/-! ## Attaching many tags -/

/-- The call that makes an attachment. -/
def Call.ofAttachment (attachment : Attachment) : Call :=
  .attachTag attachment.entry attachment.tag

/-- Both ends of the attachment exist. -/
structure IsReady (warehouse : Warehouse) (attachment : Attachment) : Prop where
  entry : warehouse.kind? attachment.entry ≠ none
  tag : warehouse.kind? attachment.tag = some .tag

/-- Some attachments have been made, in whatever order, and nothing else. -/
structure HasAttached
    (attachments : List Attachment)
    (before after : Warehouse) : Prop where
  kinds : ∀ name, after.kind? name = before.kind? name
  columns : ∀ entry column, after.declares entry column = before.declares entry column
  points : ∀ entry column micro,
    after.valueAt? entry column micro = before.valueAt? entry column micro
  tags : ∀ entry tag,
    after.carries entry tag ↔ ⟨entry, tag⟩ ∈ attachments ∨ before.carries entry tag
  schema : after.schema = before.schema

namespace HasAttached

variable {attachments order : List Attachment} {before middle after other : Warehouse}

theorem nil (warehouse : Warehouse) : HasAttached [] warehouse warehouse := by
  constructor <;> simp

theorem insertAttachment {attachment : Attachment} (ready : before.IsReady attachment) :
    HasAttached [attachment] before
      (before.insertAttachment attachment.entry attachment.tag) where
  kinds := by
    intro name
    rw [kind?_insertAttachment]
    split
    · next same => rw [← same, ready.tag, Option.getD_some]
    · rfl
  columns := fun _ _ => rfl
  points := fun _ _ _ => rfl
  tags := by
    intro entry tag
    rw [carries_insertAttachment, List.mem_singleton, Attachment.ext_iff]
    simp only [eq_comm]
  schema := rfl

theorem isReady_iff (attached : HasAttached attachments before after) (attachment : Attachment) :
    after.IsReady attachment ↔ before.IsReady attachment := by
  constructor
  · rintro ⟨entry, tag⟩
    exact ⟨attached.kinds _ ▸ entry, attached.kinds _ ▸ tag⟩
  · rintro ⟨entry, tag⟩
    exact ⟨(attached.kinds _).symm ▸ entry, (attached.kinds _).symm ▸ tag⟩

theorem trans
    (first : HasAttached order before middle)
    (second : HasAttached attachments middle after) :
    HasAttached (order ++ attachments) before after where
  kinds := fun name => (second.kinds name).trans (first.kinds name)
  columns := fun entry column => (second.columns entry column).trans (first.columns entry column)
  points := fun entry column micro =>
    (second.points entry column micro).trans (first.points entry column micro)
  tags := by
    intro entry tag
    rw [second.tags, first.tags, List.mem_append, or_left_comm, or_assoc]
  schema := second.schema.trans first.schema

/-- The order in which attachments have been made cannot be told from the tables. -/
theorem eq_of_perm
    (first : HasAttached attachments before after)
    (second : HasAttached order before other)
    (permuted : order.Perm attachments) :
    other = after := by
  refine ext_of_lookups ?kinds ?columns ?points ?tags
    (second.schema.trans first.schema.symm)
  case kinds => exact fun name => (second.kinds name).trans (first.kinds name).symm
  case columns =>
    exact fun entry column => (second.columns entry column).trans (first.columns entry column).symm
  case points =>
    exact fun entry column micro =>
      (second.points entry column micro).trans (first.points entry column micro).symm
  case tags =>
    intro entry tag
    rw [second.tags, first.tags, permuted.mem_iff]

end HasAttached

/-- An attachment of a tag to an entry is made if both exist. -/
theorem perform_ofAttachment
    (named : warehouse.IsNamed)
    {attachment : Attachment}
    (ready : warehouse.IsReady attachment) :
    ∃ reply, (Call.ofAttachment attachment).perform warehouse =
      .ok (reply, warehouse.insertAttachment attachment.entry attachment.tag) := by
  have tagNamed := named attachment.tag (by simp [ready.tag])
  have checked : warehouse.checkAttachment attachment.entry attachment.tag = .ok () :=
    (checkAttachment_eq_ok_iff ..).mpr ⟨tagNamed, ready.entry, by simp [ready.tag]⟩
  rw [Call.ofAttachment, Call.perform, attachTag, checked]
  exact ⟨_, rfl⟩

/-- Attachments between existing entries and tags are made one after the other. -/
theorem hasAttached_afterAll
    (named : warehouse.IsNamed)
    {attachments : List Attachment}
    (ready : ∀ attachment ∈ attachments, warehouse.IsReady attachment) :
    AllSucceed (attachments.map Call.ofAttachment) warehouse ∧
      HasAttached attachments warehouse
        (afterAll (attachments.map Call.ofAttachment) warehouse) := by
  induction attachments generalizing warehouse with
  | nil => exact ⟨allSucceed_nil warehouse, .nil warehouse⟩
  | cons attachment attachments inductionHypothesis =>
      obtain ⟨readyFirst, readyRest⟩ := List.forall_mem_cons.mp ready
      obtain ⟨reply, performed⟩ := perform_ofAttachment named readyFirst
      have after_eq : (Call.ofAttachment attachment).after warehouse =
          warehouse.insertAttachment attachment.entry attachment.tag := by
        rw [Call.after, performed]
      have first := HasAttached.insertAttachment readyFirst
      obtain ⟨succeed, rest⟩ := inductionHypothesis (named.perform performed)
        fun other member => (first.isReady_iff other).mpr (readyRest other member)
      rw [List.map_cons, allSucceed_cons_iff, afterAll_cons, after_eq]
      exact ⟨⟨⟨reply, _, performed⟩, succeed⟩, first.trans rest⟩

/-! ## Every call and every listing -/

/-- After every history of an empty warehouse, a call that fails changes no listing, and a call
that succeeds changes the listing of each existing tag as the call says, or ends it by removing
the tag itself. Attaching a tag answers whether its listing grows. Attachments between entries
and tags that exist can all be made, and leave the same tables in every order. -/
theorem entriesByTag_afterAll (calls : List Call) (versions : List String) :
    let warehouse := afterAll calls (blank versions)
    (∀ (call : Call) error, call.perform warehouse = .error error →
      ∀ tag, (call.after warehouse).entriesByTag tag = warehouse.entriesByTag tag) ∧
    (∀ tag names, warehouse.entriesByTag tag = .ok names →
      ∀ (call : Call) reply changed, call.perform warehouse = .ok (reply, changed) →
        (call = .removeEntry tag → changed.entriesByTag tag = .error (.unknownTag tag)) ∧
        (call ≠ .removeEntry tag → changed.entriesByTag tag = .ok (call.relist tag names)) ∧
        ∀ entry, call = .attachTag entry tag → reply = .flag (decide (entry ∉ names))) ∧
    ∀ attachments : List Attachment,
      (∀ attachment ∈ attachments, warehouse.IsReady attachment) →
      AllSucceed (attachments.map Call.ofAttachment) warehouse ∧
      ∀ order : List Attachment, order.Perm attachments →
        afterAll (order.map Call.ofAttachment) warehouse =
          afterAll (attachments.map Call.ofAttachment) warehouse := by
  intro warehouse
  have consistent : warehouse.Consistent := consistent_afterAll calls versions
  have named : warehouse.IsNamed := isNamed_afterAll calls versions
  refine ⟨?fails, ?succeeds, ?orders⟩
  case fails =>
    intro call error fails tag
    rw [Call.after, fails]
  case succeeds =>
    intro tag names listed call reply changed succeeds
    have step := Step.of_perform succeeds
    refine ⟨?_, fun kept => step.entriesByTag_eq consistent listed kept, ?_⟩
    · rintro rfl
      exact entriesByTag_of_missing step.kind?_of_removeEntry
    · rintro entry rfl
      exact reply_of_attachTag listed succeeds
  case orders =>
    intro attachments ready
    obtain ⟨succeed, attached⟩ := hasAttached_afterAll named ready
    refine ⟨succeed, fun order permuted => ?_⟩
    obtain ⟨_, reordered⟩ := hasAttached_afterAll named
      fun attachment member => ready attachment (permuted.mem_iff.mp member)
    exact attached.eq_of_perm reordered permuted

/-- Two series are there, and a tag that the first of them and the tag itself carry. -/
def taggingItself : List Call :=
  [.createSeries "A" ["value"], .createSeries "B" ["value"], .attachTag "A" "@t",
    .attachTag "@t" "@t", .attachTag "A" "@u"]

/-- The tag goes on to list the other series, or stops to list the first one when that is
removed; it lists nothing when it is removed itself. Two more attachments can be made in either
order. -/
theorem entriesByTag_afterAll_sample :
    let warehouse := afterAll taggingItself (blank [])
    warehouse.entriesByTag "@t" = .ok ["@t", "A"] ∧
    (∃ changed, (Call.attachTag "B" "@t").perform warehouse = .ok (.flag true, changed) ∧
      changed.entriesByTag "@t" = .ok ["@t", "A", "B"]) ∧
    (∃ reply changed, (Call.removeEntry "A").perform warehouse = .ok (reply, changed) ∧
      changed.entriesByTag "@t" = .ok ["@t"]) ∧
    (∃ reply changed, (Call.removeEntry "@t").perform warehouse = .ok (reply, changed) ∧
      changed.entriesByTag "@t" = .error (.unknownTag "@t")) ∧
    afterAll [.attachTag "@u" "@t", .attachTag "B" "@u"] warehouse =
      afterAll [.attachTag "B" "@u", .attachTag "@u" "@t"] warehouse := by
  intro warehouse
  obtain ⟨_, succeeds, orders⟩ := entriesByTag_afterAll taggingItself []
  have isTag : warehouse.kind? "@t" = some .tag := by decide +kernel
  have listed : warehouse.entriesByTag "@t" = .ok ["@t", "A"] := by
    have carriers : warehouse.carriers "@t" = ["@t", "A"] := by decide +kernel
    rw [entriesByTag, if_pos isTag, carriers]
  refine ⟨listed, ?attached, ?removed, ?ended, ?reordered⟩
  case attached =>
    have checked : warehouse.checkAttachment "B" "@t" = .ok () := by
      rw [checkAttachment_eq_ok_iff]
      decide +kernel
    have performed : ∃ reply changed,
        (Call.attachTag "B" "@t").perform warehouse = .ok (reply, changed) := by
      rw [Call.perform, attachTag, checked]
      exact ⟨_, _, rfl⟩
    obtain ⟨reply, changed, performed⟩ := performed
    obtain ⟨_, relisted, answered⟩ := succeeds "@t" _ listed _ reply changed performed
    have reply_eq : reply = .flag true := answered "B" rfl
    exact ⟨changed, reply_eq ▸ performed, relisted (by simp)⟩
  case removed =>
    have known : warehouse.kind? "A" = some .series := by decide +kernel
    have performed : (Call.removeEntry "A").perform warehouse =
        .ok (.flag true, warehouse.deleteEntry "A") := by
      rw [Call.perform, removeEntry, known]
      rfl
    obtain ⟨_, relisted, _⟩ := succeeds "@t" _ listed _ _ _ performed
    exact ⟨_, _, performed, relisted (by simp)⟩
  case ended =>
    have performed : (Call.removeEntry "@t").perform warehouse =
        .ok (.flag true, warehouse.deleteEntry "@t") := by
      rw [Call.perform, removeEntry, isTag]
      rfl
    obtain ⟨ended, _, _⟩ := succeeds "@t" _ listed _ _ _ performed
    exact ⟨_, _, performed, ended rfl⟩
  case reordered =>
    have ready : ∀ attachment ∈ [(⟨"B", "@u"⟩ : Attachment), ⟨"@u", "@t"⟩],
        warehouse.IsReady attachment := by
      have isOtherTag : warehouse.kind? "@u" = some .tag := by decide +kernel
      have known : warehouse.kind? "B" = some .series := by decide +kernel
      refine List.forall_mem_cons.mpr ⟨⟨?_, isOtherTag⟩, ?_⟩
      · simp [known]
      · exact List.forall_mem_singleton.mpr ⟨by simp [isOtherTag], isTag⟩
    exact (orders _ ready).2 [⟨"@u", "@t"⟩, ⟨"B", "@u"⟩] (List.Perm.swap _ _ _)

end Warehouse
end CompositeIndex
