/-
  Stylebook.Json.Read

  Reading a JSON text. `value` reads a value with at most so many arrays and
  objects open at once; it is structural in that number, since a bracket uses one
  up. Arrays and objects are rows of items that differ in how they end. `parse`
  reads a whole text and settles repeated keys. `parseObject` reads a text that
  has to be an object, which a check may still refuse before anything after the
  object is looked at.
-/

import Stylebook.Json.Numeral
import Stylebook.Json.Quotation

namespace Stylebook.Json

/-! ## Rows of items -/

/-- How a row of items ends: its closing bracket, and what is wrong where the text
    ends before it and where something else follows an item. -/
structure Closing where
  bracket : Char
  missing : Cause
  expected : Cause
  bracket_ne_comma : bracket ≠ ',' := by decide

/-- The end of an array. -/
def Closing.array : Closing where
  bracket := ']'
  missing := .endInList
  expected := .expectedCommaOrBracket

/-- The end of an object. -/
def Closing.object : Closing where
  bracket := '\x7d'
  missing := .endInObject
  expected := .expectedCommaOrBrace

/-- Reads what follows an item: the end of the row, or a comma and an item. -/
def rowStep {α : Type} (close : Closing) (item : Reader α) : Reader (Option α) := fun s =>
  match skipGap s with
  | [] => failAtEnd close.missing
  | c :: rest =>
    if c = close.bracket then .ok (none, rest)
    else if c = ',' then
      match skipGap rest with
      | [] => failAtEnd .endInValue
      | d :: rest' =>
        if d = close.bracket then failAt .trailingComma (d :: rest')
        else
          match item (d :: rest') with
          | .error f => .error f
          | .ok (a, rest'') => .ok (some a, rest'')
    else failAt close.expected (c :: rest)

/-- Reads a row of items, after its opening bracket. -/
def row {α : Type} (close : Closing) (item : Reader α) : Reader (List α) := fun s =>
  match skipGap s with
  | [] => failAtEnd close.missing
  | c :: rest =>
    if c = close.bracket then .ok ([], rest)
    else
      match item (c :: rest) with
      | .error f => .error f
      | .ok (a, rest') =>
        match many (rowStep close item) rest' with
        | .error f => .error f
        | .ok (as, rest'') => .ok (a :: as, rest'')

/-! ## Arrays and objects -/

/-- Reads an array, after its opening bracket. -/
def arrayRest (item : Reader Value) : Reader Value := fun s =>
  match row .array item s with
  | .error f => .error f
  | .ok (items, rest) => .ok (.array items, rest)

/-- Reads the colon after a key. -/
def colon (s : List Char) : Except Failure (Unit × List Char) :=
  match skipGap s with
  | [] => failAtEnd .endInObject
  | ':' :: rest => .ok ((), rest)
  | next => failAt .expectedColon next

/-- Reads a key, a colon and a value. -/
def member (item : Reader Value) (s : List Char) :
    Except Failure ((String × Value) × List Char) :=
  match s with
  | '"' :: rest => do
    let (key, rest) ← quoted rest
    let ((), rest) ← colon rest
    let (v, rest) ← item rest
    return ((key, v), rest)
  | _ => failAt .keyNotString s

/-- Reads an object, after its opening brace. -/
def objectRest (item : Reader Value) : Reader Value := fun s =>
  match row .object (member item) s with
  | .error f => .error f
  | .ok (members, rest) => .ok (.object members, rest)

/-! ## Values -/

/-- Reads a value, with given readers for what follows the opening bracket of an
    array and the opening brace of an object. -/
def valueWith (array object : Reader Value) (s : List Char) :
    Except Failure (Value × List Char) :=
  match skipGap s with
  | [] => failAtEnd .endInValue
  | c :: rest =>
    if c = 'n' then word .null ['u', 'l', 'l'] rest
    else if c = 't' then word (.bool true) ['r', 'u', 'e'] rest
    else if c = 'f' then word (.bool false) ['a', 'l', 's', 'e'] rest
    else if c = '"' then
      match quoted rest with
      | .error f => .error f
      | .ok (t, rest') => .ok (.string t, rest')
    else if c = '[' then array rest
    else if c = '\x7b' then object rest
    else if c = '-' then number true rest
    else if c.isDigit then number false (c :: rest)
    else failAt .expectedValue (c :: rest)

/-- Reads a value with at most `depth` arrays and objects open at once. -/
def value : Nat → Reader Value
  | 0 =>
    valueWith (fun rest => failAt .tooDeep ('[' :: rest))
      (fun rest => failAt .tooDeep ('\x7b' :: rest))
  | depth + 1 => valueWith (arrayRest (value depth)) (objectRest (value depth))

/-! ## Texts -/

/-- How many arrays and objects may be open at once. -/
def depthLimit : Nat := 127

/-- Nothing but blank space may follow a document. -/
def atEnd (rest : List Char) : Except Failure Unit :=
  match skipGap rest with
  | [] => .ok ()
  | next => .error ⟨.trailingCharacters, next, 1⟩

/-- Reads a whole text as one value, with repeated keys as they stand. -/
def document (s : List Char) : Except Failure Value := do
  let (v, rest) ← value depthLimit s
  atEnd rest
  return v

/-- The document in a text. -/
def parse (text : String) : Except Fault Value :=
  match document text.toList with
  | .error f => .error (f.inText text.toList)
  | .ok v => .ok v.settle

/-- The object in a text, passed through a check. A text that holds another value
    is refused after that value, an array before it. -/
def parseObject {α : Type} (check : Members → Except Mismatch α) (text : String) :
    Except Fault α :=
  let s := text.toList
  match skipGap s with
  | '[' :: rest =>
    .error (.notAnObject ⟨.sequence, .map⟩ (positionIn s ('[' :: rest) 0))
  | start =>
    match value depthLimit start with
    | .error f => .error (f.inText s)
    | .ok (v, rest) =>
      match v.settle with
      | .object members =>
        match check members with
        | .error m => .error (.mistyped m)
        | .ok a =>
          match atEnd rest with
          | .error f => .error (f.inText s)
          | .ok () => .ok a
      | other => .error (.notAnObject ⟨other.shape, .map⟩ (positionIn s rest 0))

end Stylebook.Json
