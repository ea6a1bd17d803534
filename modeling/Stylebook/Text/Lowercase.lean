/-
  Stylebook.Text.Lowercase

  Lower case of a text by the full Unicode mapping. A character is mapped alone,
  with two exceptions: the capital I with a dot becomes two characters, and the
  capital sigma takes its final form where a word ends, that is after a cased
  character and not before one, case-ignorable characters passed over.

  `lower` walks over the text with what stands before, last character first, so
  that both neighbours of a sigma are lists to look along.
-/

import Stylebook.Text.Casing

namespace Stylebook.Text

/-- The capital sigma, the one character whose lower case depends on its neighbours. -/
def capitalSigma : Char := 'Σ'

/-- Lower case of a character that stands alone. -/
def lowerChar (c : Char) : List Char :=
  if c = 'İ' then ['i', '\u0307']
  else match caseImage? lowerRuns c.toNat with
    | some image => [Char.ofNat image]
    | none => [c]

/-- Whether the first character that is not case-ignorable is cased. -/
def meetsCased : List Char → Bool
  | [] => false
  | c :: rest => if isCaseIgnorable c then meetsCased rest else isCased c

/-- The form of a sigma after `before` (last character first) and before `after`. -/
def lowerSigma (before after : List Char) : Char :=
  if meetsCased before && !meetsCased after then 'ς' else 'σ'

/-- Lower case of a text that stands after `before` (last character first). -/
def lowerAfter (before : List Char) : List Char → List Char
  | [] => []
  | c :: rest =>
    (if c = capitalSigma then [lowerSigma before rest] else lowerChar c)
      ++ lowerAfter (c :: before) rest

/-- Lower case of a text. -/
def lower (cs : List Char) : List Char := lowerAfter [] cs

/-- Lower case of a string. -/
def lowercase (s : String) : String := String.ofList (lower s.toList)

@[simp] theorem toList_lowercase (s : String) : (lowercase s).toList = lower s.toList := by
  simp [lowercase]

end Stylebook.Text
