/-
  Stylebook.Text.Layout

  Lines put together to a text, padding to a width in code points, and the preview
  of a list that shows only its first items.
-/

namespace Stylebook.Text

/-- Lines with a line feed between them. -/
def unlines (lines : List String) : String := "\n".intercalate lines

/-- Spaces. -/
def spaces (n : Nat) : String := String.ofList (List.replicate n ' ')

/-- A text filled up with spaces to at least `width` code points; a longer one is
    kept whole. -/
def padTo (width : Nat) (s : String) : String := s ++ spaces (width - s.toList.length)

/-- The first `limit` items with commas between them, and an ellipsis if any were
    left out. -/
def preview (limit : Nat) (items : List String) : String :=
  ", ".intercalate (items.take limit) ++ if limit < items.length then "..." else ""

end Stylebook.Text
