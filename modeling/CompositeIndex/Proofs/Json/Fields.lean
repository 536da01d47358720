import CompositeIndex.Proofs.Json.Reading

/-!
# Taking JSON values apart

What is put into a JSON value is taken out of it again: texts, counts of any size, and every
double that its own text leads back to.
-/

namespace CompositeIndex
namespace Json

open Decimal (magnitude)
open Decimal.Literal (digitsValue)

/-! ## What a value holds -/

def text? : Json → Option String
  | .text value => some value
  | _ => none

def boolean? : Json → Option Bool
  | .boolean value => some value
  | _ => none

/-- The natural number that a numeral of mere digits stands for. -/
def count? : Json → Option Nat
  | .number literal =>
      if isDigits literal.toList then some (digitsValue 0 literal.toList) else none
  | _ => none

/-- The double that a numeral stands for. -/
def measure? : Json → Option Float
  | .number literal => (Decoder.whole Decoder.float literal.toList).toOption
  | _ => none

/-- The items of an array, each taken out in the same way. -/
def items? (item? : Json → Option α) : Json → Option (List α)
  | .array items => items.mapM item?
  | _ => none

/-- The value of a member. -/
def field? (members : List (String × Json)) (name : String) : Option Json :=
  members.lookup name

/-! ## What is put in -/

/-- The text of the double leads back to it. -/
def ReadsBack (value : Float) : Prop :=
  Decoder.whole Decoder.float (measureLayout.write value).toList = .ok value

theorem count?_count (value : Nat) : (count value).count? = some value := by
  have areDigits : isDigits (Nat.toDigits 10 value) = true :=
    isDigits_iff.mpr ⟨Nat.toDigits_ne_nil, isDigit_of_mem_toDigits⟩
  rw [count, count?, toList_digits, if_pos areDigits, digitsValue_toDigits]

theorem readable_count (depth value : Nat) : Readable depth (count value) :=
  .number (numeral_digits value)

/-- A double that reads back is written as a numeral. -/
theorem ReadsBack.numeral {value : Float} (readsBack : ReadsBack value) :
    Numeral (measureLayout.write value).toList := by
  have noNumber : ∀ result, Decoder.whole Decoder.float "null".toList ≠ .ok result := nofun
  cases size : magnitude value with
  | nan =>
      simp only [ReadsBack, Decimal.Layout.write, size] at readsBack
      exact absurd readsBack (noNumber value)
  | infinite =>
      simp only [ReadsBack, Decimal.Layout.write, size] at readsBack
      split at readsBack <;> exact absurd readsBack (noNumber value)
  | finite significand exponent => exact numeral_write isNumeric_measureLayout size

section

variable {value : Float}

theorem measure?_measure (finite : value.isFinite = true) (readsBack : ReadsBack value) :
    (measure value).measure? = some value := by
  rw [measure, if_pos finite, measure?, show Decoder.whole _ _ = .ok value from readsBack]
  rfl

theorem readable_measure
    (depth : Nat)
    (finite : value.isFinite = true)
    (readsBack : ReadsBack value) :
    Readable depth (measure value) := by
  rw [measure, if_pos finite]
  exact .number readsBack.numeral

end

theorem items?_map
    {item? : Json → Option α} {write : β → Json} {view : β → α}
    {values : List β}
    (takesOut : ∀ value ∈ values, item? (write value) = some (view value)) :
    (array (values.map write)).items? item? = some (values.map view) := by
  induction values with
  | nil => rfl
  | cons value values inductionHypothesis =>
      obtain ⟨first, others⟩ := List.forall_mem_cons.mp takesOut
      have rest := inductionHypothesis others
      simp only [items?] at rest
      simp [items?, first, rest]

theorem items?_texts (values : List String) : (texts values).items? text? = some values := by
  have takenOut : (array (values.map .text)).items? text? = some (values.map id) :=
    items?_map fun _ _ => rfl
  rwa [List.map_id] at takenOut

theorem readable_texts (depth : Nat) (values : List String) :
    Readable (depth + 1) (texts values) := by
  refine .array fun item isItem => ?_
  obtain ⟨value, _, rfl⟩ := List.mem_map.mp isItem
  exact .text

end Json
end CompositeIndex
