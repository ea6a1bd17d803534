/-
  Stylebook.Text.Ranges

  Sets of characters given by ranges of code points. The tables of the text
  modules (blank, cased, undisplayed characters) are such ranges in rising order,
  so a look-up stops at the first range that starts after the code point.
-/

namespace Stylebook.Text

/-- Ranges of code points, both ends included, in rising order. -/
abbrev Ranges := List (Nat × Nat)

/-- Whether one of the ranges holds the code point. -/
def Ranges.holds : Ranges → Nat → Bool
  | [], _ => false
  | (first, last) :: rest, c =>
    if c < first then false else if c ≤ last then true else Ranges.holds rest c

end Stylebook.Text
