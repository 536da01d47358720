import CompositeIndex.Proofs.Warehouse.Integrity

/-!
# Where attachments come from

A row of the table of attachments is there if a call has made it and no later call has
created or removed its entry. Removing a tag is no such call: what carries the tag keeps its
row, and the row is listed again as soon as the tag exists again. A tag that was never removed
starts with the entry that it is attached to and no other.
-/

namespace CompositeIndex
namespace Warehouse

/-! ## The calls behind a row -/

/-- The call creates the entry or removes it; either way the entry loses its attachments. -/
def Call.Resets (entry : String) : Call → Prop
  | .createSeries name _ => name = entry
  | .removeEntry name => name = entry
  | .attachTag _ _ => False
  | .ingest _ _ _ => False

/-- One of the calls attaches the tag to the entry, and no later one resets the entry. -/
def IsAttachedBy (calls : List Call) (entry tag : String) : Prop :=
  ∃ before later, calls = before ++ .attachTag entry tag :: later ∧
    ∀ call ∈ later, ¬call.Resets entry

theorem not_isAttachedBy_nil (entry tag : String) : ¬IsAttachedBy [] entry tag := by
  rintro ⟨before, later, split, _⟩
  cases before <;> cases split

/-- One call more attaches the tag, or leaves it attached. -/
theorem isAttachedBy_concat_iff
    (calls : List Call)
    (call : Call)
    (entry tag : String) :
    IsAttachedBy (calls ++ [call]) entry tag ↔
      call = .attachTag entry tag ∨ IsAttachedBy calls entry tag ∧ ¬call.Resets entry := by
  constructor
  · rintro ⟨before, later, split, kept⟩
    rcases List.eq_nil_or_concat later with rfl | ⟨earlier, last, rfl⟩
    · obtain ⟨_, same⟩ := List.append_inj' split rfl
      left
      exact List.head_eq_of_cons_eq same
    · have regrouped : calls ++ [call] =
          (before ++ .attachTag entry tag :: earlier) ++ [last] := by
        simpa using split
      obtain ⟨sameCalls, same⟩ := List.append_inj' regrouped rfl
      have sameLast : call = last := List.head_eq_of_cons_eq same
      right
      refine ⟨⟨before, earlier, sameCalls, fun other member => ?_⟩, ?_⟩
      · exact kept other (by simp [member])
      · rw [sameLast]
        exact kept last (by simp)
  · rintro (rfl | ⟨⟨before, later, rfl, kept⟩, leaves⟩)
    · exact ⟨calls, [], rfl, by simp⟩
    · refine ⟨before, later ++ [call], by simp, fun other member => ?_⟩
      rcases List.mem_append.mp member with member | member
      · exact kept other member
      · rwa [List.mem_singleton.mp member]

variable {warehouse changed : Warehouse} {call : Call}

/-- What a step does to the table of attachments. -/
theorem Step.carries_iff
    (consistent : warehouse.Consistent)
    (step : Step warehouse call changed)
    (entry tag : String) :
    changed.carries entry tag ↔
      call = .attachTag entry tag ∨ warehouse.carries entry tag ∧ ¬call.Resets entry := by
  cases step with
  | created name columns nonempty notTag =>
      simp [Call.Resets, and_comm, eq_comm]
  | missed name missing =>
      have different : warehouse.carries entry tag → name ≠ entry := by
        rintro carried rfl
        exact consistent.kind_of_carries name tag carried missing
      simpa [Call.Resets] using different
  | removed name found =>
      simp [Call.Resets, and_comm, eq_comm]
  | attached name other found notSeries =>
      simp [Call.Resets]
  | idled name column =>
      simp [Call.Resets]
  | ingested name column samples finite series declared =>
      simp [Call.Resets]

/-- A tag that something carries is there as a tag, or has been removed at some time. -/
def CarriedTagsLast (done : List Call) (warehouse : Warehouse) : Prop :=
  ∀ entry tag, warehouse.carries entry tag →
    warehouse.kind? tag = some .tag ∨ .removeEntry tag ∈ done

theorem CarriedTagsLast.step
    {done : List Call}
    (last : CarriedTagsLast done warehouse)
    (step : Step warehouse call changed) :
    CarriedTagsLast (done ++ [call]) changed := by
  intro entry tag carried
  cases step with
  | created name columns nonempty notTag =>
      rw [carries_replaceSeries] at carried
      rcases last entry tag carried.2 with isTag | removed
      · have different : name ≠ tag := by
          rintro rfl
          exact notTag isTag
        exact .inl (by rw [kind?_replaceSeries, if_neg different, isTag])
      · exact .inr (List.mem_append_left _ removed)
  | missed name missing =>
      exact (last entry tag carried).imp_right (List.mem_append_left _)
  | removed name found =>
      rw [carries_deleteEntry] at carried
      by_cases same : name = tag
      · exact .inr (by simp [same])
      · rw [kind?_deleteEntry, if_neg same]
        exact (last entry tag carried.2).imp_right (List.mem_append_left _)
  | attached name other found notSeries =>
      rw [kind?_insertAttachment]
      by_cases same : other = tag
      · left
        rw [if_pos same]
        cases kind : warehouse.kind? other with
        | none => rfl
        | some known =>
            cases known with
            | tag => rfl
            | series => exact absurd kind notSeries
      · rw [if_neg same]
        rw [carries_insertAttachment] at carried
        rcases carried with ⟨_, sameTag⟩ | carried
        · exact absurd sameTag same
        · exact (last entry tag carried).imp_right (List.mem_append_left _)
  | idled name column =>
      exact (last entry tag carried).imp_right (List.mem_append_left _)
  | ingested name column samples finite series declared =>
      rw [carries_insertPoints] at carried
      rw [kind?_insertPoints]
      exact (last entry tag carried).imp_right (List.mem_append_left _)

/-- The calls that have succeeded so far account for every attachment. -/
structure IsTraced (done : List Call) (warehouse : Warehouse) : Prop where
  consistent : warehouse.Consistent
  /-- The attachments are those that a call has made and no later one has undone. -/
  carries_iff : ∀ entry tag, warehouse.carries entry tag ↔ IsAttachedBy done entry tag
  tagsLast : CarriedTagsLast done warehouse

theorem isTraced_blank (versions : List String) : IsTraced [] (blank versions) where
  consistent := consistent_blank versions
  carries_iff := by simp [not_isAttachedBy_nil]
  tagsLast := by simp [CarriedTagsLast]

theorem IsTraced.step
    {done : List Call}
    (traced : IsTraced done warehouse)
    (step : Step warehouse call changed) :
    IsTraced (done ++ [call]) changed where
  consistent := traced.consistent.step step
  carries_iff := by
    intro entry tag
    rw [step.carries_iff traced.consistent, traced.carries_iff, isAttachedBy_concat_iff]
  tagsLast := traced.tagsLast.step step

/-- The calls of a history of an empty warehouse that succeed. -/
def doneAfter (calls : List Call) (versions : List String) : List Call :=
  succeeded calls (blank versions)

/-- The successful calls of a history account for every attachment after it. -/
theorem isTraced_afterAll (calls : List Call) (versions : List String) :
    IsTraced (doneAfter calls versions) (afterAll calls (blank versions)) :=
  succeeded_induction (motive := IsTraced) (fun _ _ _ _ traced step => traced.step step) calls
    (isTraced_blank versions)

/-! ## A tag that does not exist -/

/-- Attaching a tag that does not exist makes it list the entry and whatever still carries
it. -/
theorem attachTag_of_missing
    {entry tag : String}
    {isNew : Bool}
    (missing : warehouse.kind? tag = none)
    (attached : warehouse.attachTag entry tag = .ok (isNew, changed)) :
    (isNew = true ↔ ¬warehouse.carries entry tag) ∧
      ∃ names, changed.entriesByTag tag = .ok names ∧ Names.Ascending names ∧
        ∀ name, name ∈ names ↔ name = entry ∨ warehouse.carries name tag := by
  refine ⟨isNew_iff_of_attachTag attached, ?_⟩
  obtain ⟨_, _, rfl⟩ := (attachTag_eq_ok_iff ..).mp attached
  have isTag : (warehouse.insertAttachment entry tag).kind? tag = some .tag := by
    simp [missing]
  have ascending := (warehouse.insertAttachment entry tag).ascending_carriers tag
  refine ⟨_, (entriesByTag_eq_ok_iff _).mpr ⟨isTag, ascending, mem_carriers_iff _ tag⟩,
    ascending, fun name => ?_⟩
  rw [mem_carriers_iff, carries_insertAttachment]
  simp [eq_comm]

/-- After every history of an empty warehouse, what a tag that does not exist lists once it is
attached is told by the calls that succeeded: the entry, and every other entry that was
attached to the tag before and has not been reset since. So the tag starts with the one entry
exactly if no such attachment is left, and in particular if it has never been removed. -/
theorem attachments_afterAll (calls : List Call) (versions : List String) :
    let warehouse := afterAll calls (blank versions)
    let done := doneAfter calls versions
    (∀ entry tag, warehouse.carries entry tag ↔ IsAttachedBy done entry tag) ∧
    (∀ entry tag, warehouse.carries entry tag →
      warehouse.kind? tag = some .tag ∨ .removeEntry tag ∈ done) ∧
    ∀ entry tag isNew changed, warehouse.kind? tag = none →
      warehouse.attachTag entry tag = .ok (isNew, changed) →
        (isNew = true ↔ ¬IsAttachedBy done entry tag) ∧
        (∃ names, changed.entriesByTag tag = .ok names ∧ Names.Ascending names ∧
          ∀ name, name ∈ names ↔ name = entry ∨ IsAttachedBy done name tag) ∧
        ((isNew = true ∧ changed.entriesByTag tag = .ok [entry]) ↔
          ∀ name, ¬IsAttachedBy done name tag) ∧
        (.removeEntry tag ∉ done →
          isNew = true ∧ changed.entriesByTag tag = .ok [entry]) := by
  intro warehouse done
  have traced : IsTraced done warehouse := isTraced_afterAll calls versions
  refine ⟨traced.carries_iff, traced.tagsLast, ?_⟩
  intro entry tag isNew changed missing attached
  obtain ⟨answer, names, listed, ascending, members⟩ := attachTag_of_missing missing attached
  simp only [traced.carries_iff] at answer members
  have startsAlone_iff : (isNew = true ∧ changed.entriesByTag tag = .ok [entry]) ↔
      ∀ name, ¬IsAttachedBy done name tag := by
    constructor
    · rintro ⟨new, alone⟩ name remains
      rw [listed, Except.ok.injEq] at alone
      have member : name ∈ names := (members name).mpr (.inr remains)
      rw [alone, List.mem_singleton] at member
      exact answer.mp new (member ▸ remains)
    · intro none_remains
      refine ⟨answer.mpr (none_remains entry), ?_⟩
      have alone : names = [entry] := by
        apply ascending.ext (List.pairwise_singleton _ entry)
        intro name
        simp [members, none_remains]
      rw [listed, alone]
  refine ⟨answer, ⟨names, listed, ascending, members⟩, startsAlone_iff, ?_⟩
  intro neverRemoved
  apply startsAlone_iff.mpr
  intro name remains
  rcases traced.tagsLast name tag ((traced.carries_iff name tag).mpr remains) with
    isTag | removed
  · rw [missing] at isTag
    cases isTag
  · exact neverRemoved removed

/-- A series is tagged, and then the tag is removed; another series was never tagged. -/
def removingTag : List Call :=
  [.createSeries "A" ["value"], .createSeries "B" ["value"], .attachTag "A" "@t",
    .removeEntry "@t"]

/-- An attachment can outlive its tag. When the tag is attached again, to another entry, it
lists the old one as well. -/
theorem attachments_outlive_tag :
    (¬∀ calls versions entry tag, (afterAll calls (blank versions)).carries entry tag →
      (afterAll calls (blank versions)).kind? tag = some .tag) ∧
    ¬∀ calls versions entry tag isNew changed,
      (afterAll calls (blank versions)).kind? tag = none →
      (afterAll calls (blank versions)).attachTag entry tag = .ok (isNew, changed) →
        isNew = true ∧ changed.entriesByTag tag = .ok [entry] := by
  have missing : (afterAll removingTag (blank [])).kind? "@t" = none := by decide +kernel
  constructor
  · intro everywhere
    have carried : (afterAll removingTag (blank [])).carries "A" "@t" := by
      unfold carries
      decide +kernel
    rw [everywhere removingTag [] "A" "@t" carried] at missing
    cases missing
  · intro everywhere
    have checked : (afterAll removingTag (blank [])).checkAttachment "B" "@t" = .ok () := by
      rw [checkAttachment_eq_ok_iff]
      decide +kernel
    have attached : (afterAll removingTag (blank [])).attachTag "B" "@t" =
        .ok (true, (afterAll removingTag (blank [])).insertAttachment "B" "@t") := by
      have new : (afterAll removingTag (blank [])).attachments.contains ⟨"B", "@t"⟩ = false := by
        decide +kernel
      rw [attachTag, checked, new]
      rfl
    obtain ⟨_, alone⟩ := everywhere removingTag [] "B" "@t" _ _ missing attached
    have isTag : ((afterAll removingTag (blank [])).insertAttachment "B" "@t").kind? "@t" =
        some .tag := by
      simp [missing]
    have both : ((afterAll removingTag (blank [])).insertAttachment "B" "@t").carriers "@t" =
        ["A", "B"] := by
      decide +kernel
    rw [entriesByTag, if_pos isTag, both] at alone
    simp at alone

end Warehouse
end CompositeIndex
