/-
  Stylebook.Proofs.Disk

  What the bytes of a file come to. They are a text if they are its bytes in UTF-8, and
  then the text is determined; otherwise reading them is a fault. If the bytes of one
  text go on from the bytes of another, then the text goes on from the other.
-/

import Stylebook.Disk

namespace Stylebook

namespace ReadOutcome

theorem ofBytes_eq_text_iff {bytes : ByteArray} {text : String} :
    ofBytes bytes = .text text ↔ bytes = text.toUTF8 := by
  rw [ofBytes, String.fromUTF8?]
  constructor
  · intro h
    split at h
    · next content hcontent =>
      split at hcontent
      · next hvalid =>
        cases hcontent
        cases h
        rfl
      · cases hcontent
    · cases h
  · rintro rfl
    have hvalid : text.toUTF8.IsValidUTF8 := text.isValidUTF8
    rw [dif_pos hvalid]
    rfl

/-- The bytes of a text come to the text. -/
theorem ofBytes_toUTF8 (text : String) : ofBytes text.toUTF8 = .text text :=
  ofBytes_eq_text_iff.2 rfl

/-- Bytes come to a text or to a fault. -/
theorem ofBytes_cases (bytes : ByteArray) :
    (∃ text, ofBytes bytes = .text text) ∨ ofBytes bytes = .failed .invalidText := by
  rw [ofBytes]
  split
  · next text htext => exact .inl ⟨text, rfl⟩
  · exact .inr rfl

theorem ofBytes_ne_missing (bytes : ByteArray) : ofBytes bytes ≠ .missing := by
  rcases ofBytes_cases bytes with ⟨text, h⟩ | h
  · rw [h]
    exact ReadOutcome.noConfusion
  · rw [h]
    exact ReadOutcome.noConfusion

end ReadOutcome

/-- A text whose bytes start with the bytes of another starts with the other. -/
theorem exists_append_of_toUTF8_append {text longer : String} {tail : ByteArray}
    (h : text.toUTF8 ++ tail = longer.toUTF8) :
    ∃ rest, longer.toList = text.toList ++ rest := by
  rw [String.toUTF8_eq_toByteArray, String.toUTF8_eq_toByteArray, ← String.utf8Encode_toList,
    ← String.utf8Encode_toList] at h
  obtain ⟨rest, hrest⟩ := List.isPrefix_of_utf8Encode_append_eq_utf8Encode tail h
  exact ⟨rest, hrest.symm⟩

end Stylebook
