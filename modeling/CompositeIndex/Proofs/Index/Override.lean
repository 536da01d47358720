import CompositeIndex.Proofs.Decimal.Literals
import CompositeIndex.Proofs.Decimal.Reading
import CompositeIndex.Proofs.Index.EffectiveDivisor

/-!
# The grammar of overrides

An override is split at its first equals sign, so that a name never has one, and what stands behind
it, further equals signs included, has to spell a literal. Blanks may stand at the ends of both
parts and nowhere else in a literal, while they may stand inside a name. The divisor is the double
that the literal stands for.
-/

namespace CompositeIndex
namespace DivisorOverride

open Decimal (Literal)
open Text (AreBlank IsTrimmed Trims isBlank)

/-- Without the blanks around it, there is a name before the first equals sign, and without those
around it, a literal of the value behind. -/
inductive Spelled (raw : String) : DivisorOverride → Prop
  | intro
      {before behind numeral : List Char} {name : String} {literal : Literal} {value : Float}
      (split : raw.toList = before ++ '=' :: behind)
      (isFirst : '=' ∉ before)
      (named : Trims before name.toList)
      (nonempty : name ≠ "")
      (numbered : Trims behind numeral)
      (spelled : literal.Spells numeral)
      (denotes : literal.Denotes value) :
      Spelled raw ⟨name, value⟩

/-- The name can be given in an override. -/
structure IsName (name : String) : Prop where
  nonempty : name ≠ ""
  isTrimmed : IsTrimmed name.toList
  noEquals : '=' ∉ name.toList

section

variable {raw : String} {override : DivisorOverride}

theorem parse_eq_ok_iff_spelled : parse raw = .ok override ↔ Spelled raw override := by
  rw [parse_eq_ok_iff]
  constructor
  · intro written
    cases written with
    | @intro before behind literal split isFirst named number =>
        have trims := Text.trims_trimChars before
        rw [← String.toList_ofList (l := Text.trimChars before)] at trims
        exact .intro split isFirst trims (by simpa using named) (Text.trims_trimChars behind)
          (Literal.ofChars?_eq_some_iff.mp number) literal.denotes_toFloat
  · intro spelled
    cases spelled with
    | @intro before behind numeral name literal value split isFirst named nonempty numbered spelled
        denotes =>
        obtain rfl := Literal.denotes_iff.mp denotes
        have number := Literal.ofChars?_eq_some_iff.mpr spelled
        rw [← numbered.trimChars_eq] at number
        have written := Written.intro split isFirst
          (by simpa [named.trimChars_eq] using nonempty) number
        rwa [named.trimChars_eq, String.ofList_toList] at written

theorem parse_eq_error_iff {invalid : Invalid} :
    parse raw = .error invalid ↔
      invalid = .malformedDivisor raw ∧ ∀ override, ¬Spelled raw override := by
  simp only [← parse_eq_ok_iff_spelled]
  rcases parse_cases raw with ⟨override, parsed⟩ | refused
  · simp [parsed]
  · simp [refused, eq_comm]

theorem Spelled.isName (spelled : Spelled raw override) : IsName override.index := by
  cases spelled with
  | @intro before behind numeral name literal value split isFirst named nonempty =>
      refine ⟨nonempty, named.isTrimmed, fun member => isFirst ?_⟩
      generalize name.toList = trimmed at named member
      cases named with
      | intro => simp [member]

/-- Blanks around the name and around the literal do not count. -/
theorem spelled_of_blanks
    {name : String} {numeral front behindName between behind : List Char} {literal : Literal}
    {value : Float}
    (isName : IsName name)
    (spelled : literal.Spells numeral)
    (denotes : literal.Denotes value)
    (inFront : AreBlank front)
    (isBehindName : AreBlank behindName)
    (isBetween : AreBlank between)
    (isBehind : AreBlank behind) :
    Spelled
      (String.ofList
        (front ++ (name.toList ++ behindName) ++ '=' :: (between ++ (numeral ++ behind))))
      ⟨name, value⟩ := by
  have noEquals : ∀ {blanks : List Char}, AreBlank blanks → '=' ∉ blanks := by
    intro blanks areBlank member
    cases areBlank '=' member
  refine .intro String.toList_ofList ?_ (.intro inFront isName.isTrimmed isBehindName)
    isName.nonempty (.intro isBetween spelled.isTrimmed isBehind) spelled denotes
  simp only [List.mem_append, not_or]
  exact ⟨noEquals inFront, isName.noEquals, noEquals isBehindName⟩

end

/-- A text is read as an override if and only if it is spelled as one, and any other text is
refused as it stands. A name that has been read is not empty, has no equals sign and neither begins
nor ends with a blank. Every such name and every literal are read as the name and the value of the
literal, whatever blanks are put around them. -/
theorem override_grammar :
    (∀ raw override, parse raw = .ok override ↔ Spelled raw override) ∧
    (∀ raw invalid, parse raw = .error invalid ↔
      invalid = .malformedDivisor raw ∧ ∀ override, ¬Spelled raw override) ∧
    (∀ raw override, parse raw = .ok override → IsName override.index) ∧
    ∀ (name : String) (literal : Literal) (numeral : List Char),
      IsName name → literal.Spells numeral →
        ∃ value, literal.Denotes value ∧
          ∀ front behindName between behind : List Char,
            AreBlank front → AreBlank behindName → AreBlank between → AreBlank behind →
              parse (String.ofList
                (front ++ (name.toList ++ behindName) ++
                  '=' :: (between ++ (numeral ++ behind)))) = .ok ⟨name, value⟩ := by
  refine ⟨fun _ _ => parse_eq_ok_iff_spelled, fun _ _ => parse_eq_error_iff,
    fun _ _ parsed => (parse_eq_ok_iff_spelled.mp parsed).isName, ?_⟩
  intro name literal numeral isName spelled
  refine ⟨literal.toFloat, literal.denotes_toFloat, ?_⟩
  intro front behindName between behind inFront isBehindName isBetween isBehind
  exact parse_eq_ok_iff_spelled.mpr (spelled_of_blanks isName spelled literal.denotes_toFloat
    inFront isBehindName isBetween isBehind)

/-- Blanks of four kinds around a name with a blank in it and around a literal without digits in
front of its point. -/
theorem override_grammar_sample :
    parse "\u3000A B\t=\u00a0-.5E+1\n" = .ok ⟨"A B", -5⟩ := by
  have trims : Trims "A B".toList "A B".toList := Text.trimChars_eq_iff.mp (by decide)
  have isName : IsName "A B" := ⟨by decide, trims.isTrimmed, by decide⟩
  have spelled : Literal.Spells (.number true ⟨5, 0⟩) "-.5E+1".toList :=
    Literal.ofChars?_eq_some_iff.mp (by decide)
  have areBlank : ∀ char, isBlank char = true → AreBlank [char] :=
    fun char isBlank => List.forall_mem_singleton.mpr isBlank
  obtain ⟨value, denotes, parsed⟩ := override_grammar.2.2.2 "A B" _ _ isName spelled
  have isValue : (Literal.number true ⟨5, 0⟩).toFloat = -5 := by decide +kernel
  obtain rfl : -5 = value := isValue.symm.trans (Literal.denotes_iff.mp denotes)
  have raw : String.ofList (['\u3000'] ++ ("A B".toList ++ ['\t']) ++
      '=' :: (['\u00a0'] ++ ("-.5E+1".toList ++ ['\n']))) = "\u3000A B\t=\u00a0-.5E+1\n" := by
    decide
  rw [← raw]
  exact parsed _ _ _ _ (areBlank _ rfl) (areBlank _ rfl) (areBlank _ rfl) (areBlank _ rfl)

end DivisorOverride
end CompositeIndex
