import CompositeIndex.Error
import CompositeIndex.Text.Blank

/-!
# Tags

A tag is the mark `@` followed by a label: at least one character, none of them blank. Three
tags have a meaning of their own: `@indexes` and `@products` say what an entry is, and
`@tags` lists the tags worth showing.
-/

namespace CompositeIndex

/-- A tag, given by its label. -/
@[ext]
structure Tag where
  /-- The characters behind the mark. -/
  label : List Char
  /-- There is at least one character. -/
  label_ne_nil : label ≠ []
  /-- No character is blank. -/
  label_not_blank : label.all (fun char => !Text.isBlank char) = true
  deriving DecidableEq, Repr

namespace Tag

/-- The character that every tag starts with. -/
def mark : Char := '@'

/-- The tag as it is written. -/
def text (tag : Tag) : String :=
  String.ofList (mark :: tag.label)

theorem text_injective {first second : Tag} (same : first.text = second.text) :
    first = second := by
  have labels := String.ofList_injective same
  injection labels with _ labels
  exact Tag.ext labels

/-- The label as it is shown in listings. -/
def labelText (tag : Tag) : String :=
  String.ofList tag.label

/-- The tag of every composite index. -/
def indexes : Tag where
  label := ['i', 'n', 'd', 'e', 'x', 'e', 's']
  label_ne_nil := by decide
  label_not_blank := by decide

/-- The tag of every instrument that may be a constituent. -/
def products : Tag where
  label := ['p', 'r', 'o', 'd', 'u', 'c', 't', 's']
  label_ne_nil := by decide
  label_not_blank := by decide

/-- The tag whose entries are the tags worth showing. -/
def tags : Tag where
  label := ['t', 'a', 'g', 's']
  label_ne_nil := by decide
  label_not_blank := by decide

/-- Reads a tag from characters without blanks at their ends. -/
def ofTrimmed (chars : List Char) : Except Invalid Tag :=
  match chars with
  | [] => .error .emptyTag
  | first :: label =>
      if first ≠ mark then .error (.unmarkedTag (String.ofList chars))
      else if nonempty : label = [] then .error (.unmarkedTag (String.ofList chars))
      else if solid : label.all (fun char => !Text.isBlank char) = true then
        .ok ⟨label, nonempty, solid⟩
      else .error (.brokenTag (String.ofList chars))

/-- Reads a tag; blanks around it do not count. -/
def parse (input : String) : Except Invalid Tag :=
  ofTrimmed (Text.trimChars input.toList)

/-- Tags are ordered by their labels, which is the order of their texts. -/
instance : Ord Tag := ⟨compareOn Tag.label⟩

instance : Std.TransOrd Tag :=
  inferInstanceAs (Std.TransCmp (compareOn Tag.label))

instance : Std.LawfulEqOrd Tag where
  eq_of_compare := fun {first second} equal => by
    have labels : compareOn Tag.label first second = .eq := equal
    simp only [compareOn, Std.compare_eq_iff_eq] at labels
    exact Tag.ext labels

end Tag
end CompositeIndex
