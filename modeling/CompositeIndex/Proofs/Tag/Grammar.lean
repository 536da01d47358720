import CompositeIndex.Proofs.Json.Typed
import CompositeIndex.Proofs.Text.Trimming
import CompositeIndex.Tag.Json

/-!
# The grammar of tags

A text is a tag if it is the mark with at least one character behind it, none of them blank, once
the blanks around it are gone. Every other text has exactly one flaw, which it is refused for.
Since the blanks that are looked for inside a tag are those that are taken off its ends, the text
of a tag is read as this tag again. In JSON a tag is a text that is read as a tag.
-/

namespace CompositeIndex
namespace Tag

open Json.Decoder (text_eq_ok_iff whole_eq_ok_iff)
open Text (isBlank trimChars AreBlank IsTrimmed Trims)

/-- The mark and at least one character behind it, none of them blank. -/
inductive IsWritten : List Char → Prop
  | intro
      {label : List Char}
      (nonempty : label ≠ [])
      (solid : ∀ char ∈ label, isBlank char = false) :
      IsWritten ('@' :: label)

/-- Why a text without blanks at its ends is no tag. -/
inductive Flaw (trimmed : String) : Invalid → Prop
  | empty
      (isEmpty : trimmed = "") :
      Flaw trimmed .emptyTag
  /-- It does not start with the mark, or there is nothing behind the mark. -/
  | unmarked
      (nonempty : trimmed ≠ "")
      (isUnmarked : trimmed.toList.head? ≠ some '@' ∨ trimmed = "@") :
      Flaw trimmed (.unmarkedTag trimmed)
  /-- There is a blank behind the mark. -/
  | broken
      {label : List Char} {blank : Char}
      (isMarked : trimmed.toList = '@' :: label)
      (member : blank ∈ label)
      (breaks : isBlank blank = true) :
      Flaw trimmed (.brokenTag trimmed)

@[simp] theorem toList_text (tag : Tag) : tag.text.toList = '@' :: tag.label := by
  simp [text, mark]

theorem solid (tag : Tag) : ∀ char ∈ tag.label, isBlank char = false := by
  simpa using tag.label_not_blank

theorem isWritten_text (tag : Tag) : IsWritten tag.text.toList := by
  rw [toList_text]
  exact .intro tag.label_ne_nil tag.solid

/-! ## Reading a text -/

/-- A trimmed text is read as a tag or has a flaw. -/
theorem ofTrimmed_cases (chars : List Char) :
    (∃ tag, ofTrimmed chars = .ok tag ∧ tag.text.toList = chars) ∨
      ∃ invalid, ofTrimmed chars = .error invalid ∧ Flaw (String.ofList chars) invalid := by
  cases chars with
  | nil => exact .inr ⟨_, rfl, .empty rfl⟩
  | cons first label =>
      by_cases marked : first = '@'
      · subst marked
        by_cases alone : label = []
        · subst alone
          exact .inr ⟨_, rfl, .unmarked (by decide) (.inr rfl)⟩
        · by_cases solid : label.all (fun char => !isBlank char) = true
          · refine .inl ⟨⟨label, alone, solid⟩, ?_, toList_text _⟩
            simp [ofTrimmed, mark, alone, solid]
          · obtain ⟨blank, member, breaks⟩ := by simpa using solid
            refine .inr ⟨.brokenTag (String.ofList ('@' :: label)), ?_,
              .broken String.toList_ofList member breaks⟩
            simp [ofTrimmed, mark, alone, solid]
      · refine .inr ⟨_, if_pos marked, .unmarked (by simp) (.inl ?_)⟩
        simpa using marked

theorem ofTrimmed_text (tag : Tag) : ofTrimmed tag.text.toList = .ok tag := by
  rw [toList_text]
  simp [ofTrimmed, mark, tag.label_ne_nil, tag.label_not_blank]

theorem Flaw.ofTrimmed_eq
    {trimmed : String}
    {invalid : Invalid}
    (flaw : Flaw trimmed invalid) :
    ofTrimmed trimmed.toList = .error invalid := by
  cases flaw with
  | empty isEmpty =>
      subst isEmpty
      rfl
  | unmarked nonempty isUnmarked =>
      cases spelled : trimmed.toList with
      | nil => exact absurd (String.toList_eq_nil_iff.mp spelled) nonempty
      | cons first label =>
          have same : String.ofList (first :: label) = trimmed := by
            rw [← spelled, String.ofList_toList]
          rcases isUnmarked with otherFirst | alone
          · rw [spelled] at otherFirst
            have notMark : first ≠ mark := fun isMark => otherFirst (congrArg some isMark)
            rw [ofTrimmed, if_pos notMark, same]
          · subst alone
            cases spelled
            rfl
  | @broken label blank isMarked member breaks =>
      have same : String.ofList ('@' :: label) = trimmed := by
        rw [← isMarked, String.ofList_toList]
      have notSolid : ¬label.all (fun char => !isBlank char) = true := by
        intro solid
        have notBlank := List.all_eq_true.mp solid blank member
        rw [breaks] at notBlank
        cases notBlank
      rw [isMarked]
      simp [ofTrimmed, mark, List.ne_nil_of_mem member, notSolid, same]

theorem ofTrimmed_eq_ok_iff {chars : List Char} {tag : Tag} :
    ofTrimmed chars = .ok tag ↔ tag.text.toList = chars := by
  constructor
  · intro isRead
    rcases ofTrimmed_cases chars with ⟨other, alsoRead, spelled⟩ | ⟨_, refused, _⟩
    · cases alsoRead.symm.trans isRead
      exact spelled
    · cases refused.symm.trans isRead
  · rintro rfl
    exact ofTrimmed_text tag

theorem ofTrimmed_eq_error_iff {trimmed : String} {invalid : Invalid} :
    ofTrimmed trimmed.toList = .error invalid ↔ Flaw trimmed invalid := by
  constructor
  · intro isRefused
    rcases ofTrimmed_cases trimmed.toList with ⟨_, isRead, _⟩ | ⟨other, refused, flaw⟩
    · cases isRead.symm.trans isRefused
    · cases refused.symm.trans isRefused
      rwa [String.ofList_toList] at flaw
  · exact Flaw.ofTrimmed_eq

/-- There are no blanks to be taken off a tag. -/
theorem trims_text (tag : Tag) : Trims tag.text.toList tag.text.toList := by
  have isTrimmed : IsTrimmed tag.text.toList := by
    rw [toList_text]
    exact .of_solid (List.forall_mem_cons.mpr ⟨by decide, tag.solid⟩)
  have noBlanks : AreBlank [] := nofun
  simpa using Trims.intro noBlanks isTrimmed noBlanks

/-- The text of a tag is read as this tag. -/
theorem parse_text (tag : Tag) : parse tag.text = .ok tag := by
  rw [parse, tag.trims_text.trimChars_eq, ofTrimmed_text]

/-! ## Reading JSON -/

/-- In JSON a tag is a text that is read as the tag. -/
theorem ofJson_eq_ok_iff {raw : String} {tag : Tag} :
    ofJson raw = .ok tag ↔ ∃ input, Json.read raw = .ok (.text input) ∧ parse input = .ok tag := by
  simp only [ofJson, Json.read, whole_eq_ok_iff, ← text_eq_ok_iff]
  constructor
  · rintro ⟨rest, isRead, isEnd⟩
    unfold decoder at isRead
    split at isRead
    next => cases isRead
    next input behind isText =>
      split at isRead
      next => cases isRead
      next isTag =>
        cases isRead
        exact ⟨input, ⟨rest, isText, isEnd⟩, isTag⟩
  · rintro ⟨input, ⟨rest, isText, isEnd⟩, isTag⟩
    exact ⟨rest, by simp [decoder, isText, isTag], isEnd⟩

/-- What is written in JSON is read back. -/
theorem ofJson_render_toJson (tag : Tag) : ofJson tag.toJson.render = .ok tag :=
  ofJson_eq_ok_iff.mpr ⟨tag.text, Json.read_render .text, tag.parse_text⟩

/-! ## The grammar -/

theorem parse_eq_ok_iff {input trimmed : String} {tag : Tag}
    (trims : Trims input.toList trimmed.toList) :
    parse input = .ok tag ↔ tag.text = trimmed := by
  rw [parse, trims.trimChars_eq, ofTrimmed_eq_ok_iff, String.toList_inj]

theorem exists_parse_iff {input trimmed : String}
    (trims : Trims input.toList trimmed.toList) :
    (∃ tag, parse input = .ok tag) ↔ IsWritten trimmed.toList := by
  simp only [parse_eq_ok_iff trims]
  constructor
  · rintro ⟨tag, rfl⟩
    exact tag.isWritten_text
  · generalize spelled : trimmed.toList = chars
    rintro ⟨nonempty, solid⟩
    refine ⟨⟨_, nonempty, by simpa using solid⟩, ?_⟩
    rw [← String.toList_inj, toList_text, spelled]

/-- A text is read as a tag if and only if the mark and one or more characters, none of them
blank, are left of it without the blanks around it, and then they are the text of the tag. Every
other text is refused for the flaw that it has then. A JSON text is read as a tag if and only if
it holds a text that is read as this tag. The text of every tag is read as the tag itself, there
is a label, the text is the label behind the mark, and what is written of the tag in JSON is read
as the tag again. -/
theorem tag_grammar :
    (∀ input, ∃ trimmed : String, Trims input.toList trimmed.toList ∧
      ((∃ tag, parse input = .ok tag) ↔ IsWritten trimmed.toList) ∧
      (∀ tag, parse input = .ok tag ↔ tag.text = trimmed) ∧
      ∀ invalid, parse input = .error invalid ↔ Flaw trimmed invalid) ∧
    (∀ raw tag, ofJson raw = .ok tag ↔
      ∃ input, Json.read raw = .ok (.text input) ∧ parse input = .ok tag) ∧
    ∀ tag : Tag,
      parse tag.text = .ok tag ∧ tag.labelText ≠ "" ∧ tag.text = "@" ++ tag.labelText ∧
        ofJson tag.toJson.render = .ok tag := by
  refine ⟨fun input => ?_, fun _ _ => ofJson_eq_ok_iff, fun tag => ?_⟩
  · have trims : Trims input.toList (String.ofList (trimChars input.toList)).toList := by
      rw [String.toList_ofList]
      exact Text.trims_trimChars input.toList
    refine ⟨_, trims, exists_parse_iff trims, fun _ => parse_eq_ok_iff trims, fun invalid => ?_⟩
    rw [← ofTrimmed_eq_error_iff, ← trims.trimChars_eq, parse]
  · have hasLabel : tag.labelText ≠ "" := by
      simpa [labelText] using tag.label_ne_nil
    have isMarked : tag.text = "@" ++ tag.labelText := by
      rw [← String.toList_inj]
      simp [labelText]
    exact ⟨tag.parse_text, hasLabel, isMarked, tag.ofJson_render_toJson⟩

end Tag
end CompositeIndex
