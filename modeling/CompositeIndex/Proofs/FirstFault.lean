/-!
# First faults

Names, overrides and divisors are taken one after the other, and the first one that is not good
is what is complained about. Either there is none, or it has only good ones in front of it.
-/

namespace CompositeIndex

/-- All elements of a list are good, or there is a first one that is not. -/
theorem forall_or_exists_first {Element : Type} (isGood : Element → Prop) (list : List Element) :
    (∀ element ∈ list, isGood element) ∨
      ∃ before element after, list = before ++ element :: after ∧
        (∀ earlier ∈ before, isGood earlier) ∧ ¬isGood element := by
  induction list with
  | nil => exact .inl nofun
  | cons element list inductionHypothesis =>
      by_cases good : isGood element
      · rcases inductionHypothesis with all | ⟨before, bad, after, rfl, allBefore, isBad⟩
        · exact .inl (List.forall_mem_cons.mpr ⟨good, all⟩)
        · exact .inr ⟨element :: before, bad, after, rfl,
            List.forall_mem_cons.mpr ⟨good, allBefore⟩, isBad⟩
      · exact .inr ⟨[], element, list, rfl, nofun, good⟩

end CompositeIndex
