import Mathlib.Data.List.DropRight
import CompositeIndex.Text.Blank

/-!
# Trimming

A text falls apart into blanks, the trimmed text and blanks again. The trimmed text is the only
one between blanks that neither begins nor ends with a blank. So trimming once more changes
nothing, and blanks that are put around a text do not count.
-/

namespace CompositeIndex
namespace Text

/-- There is nothing but blanks. -/
def AreBlank (chars : List Char) : Prop :=
  ∀ char ∈ chars, isBlank char = true

/-- Neither the first nor the last character is blank. -/
structure IsTrimmed (chars : List Char) : Prop where
  first : ∀ char ∈ chars.head?, isBlank char = false
  last : ∀ char ∈ chars.getLast?, isBlank char = false

/-- The characters are the trimmed ones with blanks around them. -/
inductive Trims : (chars trimmed : List Char) → Prop
  | intro
      {front trimmed behind : List Char}
      (inFront : AreBlank front)
      (isTrimmed : IsTrimmed trimmed)
      (isBehind : AreBlank behind) :
      Trims (front ++ (trimmed ++ behind)) trimmed

section

variable {chars trimmed : List Char}

theorem IsTrimmed.of_solid (solid : ∀ char ∈ chars, isBlank char = false) : IsTrimmed chars :=
  ⟨fun char isFirst => solid char (List.mem_of_mem_head? isFirst),
    fun char isLast => solid char (List.mem_of_mem_getLast? isLast)⟩

theorem Trims.isTrimmed (trims : Trims chars trimmed) : IsTrimmed trimmed := by
  cases trims with
  | intro _ isTrimmed _ => exact isTrimmed

theorem dropWhile_append_of_isTrimmed
    (isTrimmed : IsTrimmed trimmed)
    {behind : List Char}
    (isBehind : AreBlank behind) :
    (trimmed ++ behind).dropWhile isBlank = if trimmed = [] then [] else trimmed ++ behind := by
  cases trimmed with
  | nil => rw [List.nil_append, if_pos rfl, List.dropWhile_eq_nil_iff.mpr isBehind]
  | cons first others =>
      have solid := isTrimmed.first first rfl
      rw [if_neg (List.cons_ne_nil _ _), List.cons_append,
        List.dropWhile_cons_of_neg (by simp [solid])]

theorem rdropWhile_append_of_isTrimmed
    (isTrimmed : IsTrimmed trimmed)
    {behind : List Char}
    (isBehind : AreBlank behind) :
    (trimmed ++ behind).rdropWhile isBlank = trimmed := by
  rw [List.rdropWhile, List.reverse_append,
    List.dropWhile_append_of_pos fun char member => isBehind char (List.mem_reverse.mp member)]
  refine List.rdropWhile_eq_self_iff.mpr fun notEmpty => ?_
  simp [isTrimmed.last _ (List.getLast?_eq_some_getLast notEmpty)]

theorem Trims.trimChars_eq (trims : Trims chars trimmed) : trimChars chars = trimmed := by
  obtain ⟨inFront, isTrimmed, isBehind⟩ := trims
  change ((_ ++ (trimmed ++ _)).dropWhile isBlank).rdropWhile isBlank = trimmed
  rw [List.dropWhile_append_of_pos inFront, dropWhile_append_of_isTrimmed isTrimmed isBehind]
  split
  next isEmpty => rw [isEmpty, List.rdropWhile_nil]
  next => exact rdropWhile_append_of_isTrimmed isTrimmed isBehind

end

theorem trims_trimChars (chars : List Char) : Trims chars (trimChars chars) := by
  set rest := chars.dropWhile isBlank with isRest
  have ends : trimChars chars ++ rest.rtakeWhile isBlank = rest :=
    List.rdropWhile_append_rtakeWhile
  have trims : Trims (chars.takeWhile isBlank ++ (trimChars chars ++ rest.rtakeWhile isBlank))
      (trimChars chars) := by
    refine .intro (fun _ => List.mem_takeWhile_imp) ⟨?first, ?last⟩
      (fun _ => List.mem_rtakeWhile_imp)
    case first =>
      intro char isFirst
      have alsoFirst : rest.head? = some char := by
        rw [← ends, List.head?_append, isFirst]
        rfl
      have notBlank := List.head?_dropWhile_not isBlank chars
      rwa [← isRest, alsoFirst] at notBlank
    case last =>
      intro char isLast
      have notEmpty : rest.rdropWhile isBlank ≠ [] := by
        intro isEmpty
        change (rest.rdropWhile isBlank).getLast? = some char at isLast
        rw [isEmpty] at isLast
        cases isLast
      have notBlank := List.rdropWhile_last_not isBlank rest notEmpty
      rw [List.getLast?_eq_some_getLast (l := trimChars chars) notEmpty] at isLast
      cases isLast
      exact Bool.eq_false_iff.mpr notBlank
  rwa [ends, isRest, List.takeWhile_append_dropWhile] at trims

/-- Trimming finds the trimmed text, and there is no other one. -/
theorem trimChars_eq_iff {chars trimmed : List Char} :
    trimChars chars = trimmed ↔ Trims chars trimmed := by
  constructor
  · rintro rfl
    exact trims_trimChars chars
  · exact Trims.trimChars_eq

end Text
end CompositeIndex
