/-
  Stylebook.Text.Containment

  Whether one text stands inside another, and what stands before it.
  `contains_iff` says the first as a factorisation of the larger text.
-/

namespace Stylebook.Text

/-- Whether `needle` is a contiguous piece of the text; the empty one always is. -/
def contains (needle : List Char) : List Char → Bool
  | [] => needle.isEmpty
  | c :: rest => needle.isPrefixOf (c :: rest) || contains needle rest

/-- A piece is contained exactly when the text is some text, the piece, and some
    text. -/
theorem contains_iff {needle hay : List Char} :
    contains needle hay = true ↔ ∃ before after, hay = before ++ needle ++ after := by
  induction hay with
  | nil =>
    constructor
    · intro h
      have : needle = [] := by simpa [contains] using h
      exact ⟨[], [], by simp [this]⟩
    · rintro ⟨a, b, h⟩
      have len := congrArg List.length h
      simp only [List.length_nil, List.length_append] at len
      have : needle = [] := List.eq_nil_of_length_eq_zero (by omega)
      simp [contains, this]
  | cons c rest ih =>
    simp only [contains, Bool.or_eq_true, List.isPrefixOf_iff_prefix, ih]
    constructor
    · rintro (⟨t, ht⟩ | ⟨a, b, rfl⟩)
      · exact ⟨[], t, by simp [ht]⟩
      · exact ⟨c :: a, b, by simp⟩
    · rintro ⟨a, b, h⟩
      cases a with
      | nil => exact Or.inl ⟨b, by simpa using h.symm⟩
      | cons d a =>
        simp only [List.cons_append, List.cons.injEq] at h
        exact Or.inr ⟨a, b, h.2⟩

/-- What stands before the first place of a piece; the whole text if it holds no
    such piece. -/
def before (piece : List Char) : List Char → List Char
  | [] => []
  | c :: rest => if piece.isPrefixOf (c :: rest) then [] else c :: before piece rest

end Stylebook.Text
