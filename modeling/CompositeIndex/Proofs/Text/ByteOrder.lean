import Mathlib.Data.String.Basic
import CompositeIndex.Text.Names

/-!
# The order of bytes

Names are compared by their code points. This is the same as comparing the bytes of their
UTF-8 encodings: of two characters the smaller one has the smaller encoding, and the encodings
differ before either of them ends.
-/

namespace CompositeIndex
namespace Text

/-- The bytes of the text in UTF-8. -/
def bytes (text : String) : List UInt8 :=
  text.toUTF8.data.toList

/-- The encodings of the characters one after the other. -/
def encode (chars : List Char) : List UInt8 :=
  chars.flatMap String.utf8EncodeChar

theorem bytes_eq_encode (text : String) : bytes text = encode text.toList := by
  rw [bytes, String.toUTF8_eq_toByteArray, ← String.utf8Encode_toList, List.utf8Encode,
    List.toList_data_toByteArray, encode]

theorem bytes_append (first second : String) :
    bytes (first ++ second) = bytes first ++ bytes second := by
  simp only [bytes_eq_encode, encode, String.toList_append, List.flatMap_append]

/-- A smaller character comes first, whatever follows it. -/
theorem utf8EncodeChar_append_lt
    {first second : Char}
    (smaller : first < second)
    (rest others : List UInt8) :
    String.utf8EncodeChar first ++ rest < String.utf8EncodeChar second ++ others := by
  have valueLess : first.val.toNat < second.val.toNat := smaller
  have bound : second.val.toNat < 0x110000 := by
    rcases second.valid with small | ⟨_, small⟩
    · exact Nat.lt_trans small (by decide)
    · exact small
  simp only [String.utf8EncodeChar]
  generalize first.val.toNat = low at valueLess
  generalize second.val.toNat = high at valueLess bound
  -- a wider encoding starts with a greater byte; in one width the digits decide
  repeat' split
  all_goals
    simp (disch := omega) only [List.cons_append, List.nil_append, List.cons_lt_cons_iff,
      UInt8.lt_iff_toNat_lt, ← UInt8.toNat_inj, UInt8.toNat_ofNat', Nat.mod_eq_of_lt]
    omega

theorem encode_lt_encode {first second : List Char} (smaller : first < second) :
    encode first < encode second := by
  induction first generalizing second with
  | nil =>
      cases second with
      | nil => exact absurd smaller (List.not_lt_nil _)
      | cons char others =>
          cases encoding : encode (char :: others) with
          | nil =>
              have noByte := (List.append_eq_nil_iff.mp encoding).1
              exact absurd noByte (String.utf8EncodeChar_ne_nil)
          | cons byte bytes => exact List.nil_lt_cons byte bytes
  | cons char chars inductionHypothesis =>
      cases second with
      | nil => exact absurd smaller (List.not_lt_nil _)
      | cons other others =>
          rcases List.cons_lt_cons_iff.mp smaller with charLess | ⟨rfl, restLess⟩
          · exact utf8EncodeChar_append_lt charLess _ _
          · exact List.append_left_lt (inductionHypothesis restLess)

/-- The order of names is the order of their bytes. -/
theorem bytes_lt_bytes_iff (first second : String) :
    bytes first < bytes second ↔ first < second := by
  simp only [bytes_eq_encode, String.lt_iff_toList_lt]
  constructor
  · intro smaller
    rcases lt_trichotomy first.toList second.toList with less | same | greater
    · exact less
    · rw [same] at smaller
      exact absurd smaller (List.lt_irrefl _)
    · exact absurd smaller (List.lt_asymm (encode_lt_encode greater))
  · exact encode_lt_encode

theorem bytes_lt_of_compare {first second : String} (smaller : compare first second = .lt) :
    bytes first < bytes second :=
  (bytes_lt_bytes_iff first second).mpr (compareOfLessAndEq_eq_lt.mp smaller)

/-- Lists of characters are compared like the texts that they spell. -/
theorem lt_of_compare {first second : List Char} (smaller : compare first second = .lt) :
    first < second := by
  induction first generalizing second with
  | nil =>
      cases second with
      | nil => cases smaller
      | cons char others => exact List.nil_lt_cons char others
  | cons char chars inductionHypothesis =>
      cases second with
      | nil => cases smaller
      | cons other others =>
          rw [List.compare_eq_compareLex, List.compareLex_cons_cons, Ordering.then_eq_lt]
            at smaller
          rw [List.cons_lt_cons_iff]
          rcases smaller with charLess | ⟨same, restLess⟩
          · exact .inl (compareOfLessAndEq_eq_lt.mp charLess)
          · exact .inr ⟨Std.compare_eq_iff_eq.mp same, inductionHypothesis restLess⟩

/-- A text is determined by its bytes. -/
theorem eq_of_bytes_eq {first second : String} (same : bytes first = bytes second) :
    first = second := by
  rcases lt_trichotomy first second with less | equal | greater
  · have smaller := (bytes_lt_bytes_iff first second).mpr less
    rw [same] at smaller
    exact absurd smaller (List.lt_irrefl _)
  · exact equal
  · have smaller := (bytes_lt_bytes_iff second first).mpr greater
    rw [same] at smaller
    exact absurd smaller (List.lt_irrefl _)

end Text
end CompositeIndex
