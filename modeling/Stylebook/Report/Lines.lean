/-
  Stylebook.Report.Lines

  Pieces of line that both reports are made of. An optional detail is a list of
  lines with one line or none.
-/

import Stylebook.Text.Layout

namespace Stylebook.Report

/-- A name with the Vietnamese one behind it, if there is one. -/
def displayName (name nameVi : String) : String :=
  if nameVi = "" then name else name ++ " (" ++ nameVi ++ ")"

/-- What a bulleted line starts with. -/
def bullet : String := "   • "

/-- A detail below a bulleted line, if it is not empty. -/
def detail (text : String) : List String :=
  if text = "" then [] else ["     " ++ text]

/-- A detail below a line of a table whose first column has a width, if it is not
    empty. -/
def column (width : Nat) (text : String) : List String :=
  if text = "" then [] else ["  " ++ Text.spaces width ++ " " ++ text]

/-- A list behind a label; an empty list leaves nothing. -/
def labelled (label : String) (items : List String) (shown : List String → String) : String :=
  if items = [] then "" else label ++ shown items

/-- How many topics of an industry are shown. -/
def topicLimit : Nat := 3

/-- How many phrases of a blacklisted group are shown. -/
def phraseLimit : Nat := 5

end Stylebook.Report
