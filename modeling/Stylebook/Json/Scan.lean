/-
  Stylebook.Json.Scan

  What the readers of numbers, strings and values share: the type of a reader,
  the blank space of the format, words such as `null`, and the repetition of a
  step that reads one item or the end.

  A repetition reads as many items as the text has characters at most, with the
  text itself as the budget, so a step that consumes something for each item never
  runs out of it.
-/

import Stylebook.Json.Fault

namespace Stylebook.Json

/-- A reader takes a result off the front of a text, or says where it failed. -/
abbrev Reader (α : Type) := List Char → Except Failure (α × List Char)

/-- Fails with some bytes of the text counted as read. -/
def fail {α : Type} (cause : Cause) (rest : List Char) (ahead : Nat) :
    Except Failure (α × List Char) :=
  .error ⟨cause, rest, ahead⟩

/-- Fails at the end of the text. -/
def failAtEnd {α : Type} (cause : Cause) : Except Failure (α × List Char) := fail cause [] 0

/-- Fails at the next character, whose first byte counts as read. -/
def failAt {α : Type} (cause : Cause) (rest : List Char) : Except Failure (α × List Char) :=
  fail cause rest 1

/-- The blank space between tokens: space, tab, line feed, carriage return. -/
def isGap (c : Char) : Bool := c == ' ' || c == '\t' || c == '\n' || c == '\r'

/-- A text without the blank space at its start. -/
def skipGap (s : List Char) : List Char := s.dropWhile isGap

/-- Reads the characters of a word one by one, for a value that they stand for. -/
def word (value : Value) : List Char → Reader Value
  | [], s => .ok (value, s)
  | _ :: _, [] => failAtEnd .endInValue
  | w :: ws, c :: s => if c = w then word value ws s else failAt .expectedIdent (c :: s)

/-- Repeats a step until it reads the end. Each item uses up one character of
    `budget`. -/
def repeatStep {α : Type} (step : Reader (Option α)) : List Char → Reader (List α)
  | [], s =>
    match step s with
    | .error f => .error f
    | .ok (none, rest) => .ok ([], rest)
    | .ok (some _, rest) => fail .endInValue rest 0
  | _ :: budget, s =>
    match step s with
    | .error f => .error f
    | .ok (none, rest) => .ok ([], rest)
    | .ok (some a, rest) =>
      match repeatStep step budget rest with
      | .error f => .error f
      | .ok (as, rest') => .ok (a :: as, rest')

/-- Repeats a step until it reads the end. -/
def many {α : Type} (step : Reader (Option α)) : Reader (List α) :=
  fun s => repeatStep step s s

end Stylebook.Json
