/-
  Stylebook.Json.Write

  Writing a JSON document, on one line or with each item on a line of its own.
  The two layouts differ only in the blank space they put around items and after
  the colon; empty arrays and objects are written without any.
-/

import Stylebook.Json.Quotation

namespace Stylebook.Json

/-- Where blank space goes. -/
inductive Layout where
  | compact
  | pretty
deriving DecidableEq, Repr

/-- What stands before an item or a closing bracket at a level of nesting. -/
def Layout.gap : Layout → Nat → List Char
  | .compact, _ => []
  | .pretty, level => '\n' :: List.replicate (2 * level) ' '

/-- What stands between a key and its value. -/
def Layout.colon : Layout → List Char
  | .compact => [':']
  | .pretty => [':', ' ']

mutual

/-- A document at a level of nesting. -/
def Value.write (layout : Layout) (level : Nat) : Value → List Char
  | .null => ['n', 'u', 'l', 'l']
  | .bool true => ['t', 'r', 'u', 'e']
  | .bool false => ['f', 'a', 'l', 's', 'e']
  | .number n => n.spell
  | .string s => writeString s
  | .array [] => ['[', ']']
  | .array (v :: rest) =>
    '[' :: layout.gap (level + 1) ++ v.write layout (level + 1)
      ++ writeItems layout (level + 1) rest ++ layout.gap level ++ [']']
  | .object [] => ['\x7b', '\x7d']
  | .object ((k, v) :: rest) =>
    '\x7b' :: layout.gap (level + 1) ++ writeString k ++ layout.colon
      ++ v.write layout (level + 1) ++ writeMembers layout (level + 1) rest
      ++ layout.gap level ++ ['\x7d']

/-- The items of an array after the first. -/
def writeItems (layout : Layout) (level : Nat) : List Value → List Char
  | [] => []
  | v :: rest => ',' :: layout.gap level ++ v.write layout level ++ writeItems layout level rest

/-- The members of an object after the first. -/
def writeMembers (layout : Layout) (level : Nat) : Members → List Char
  | [] => []
  | (k, v) :: rest =>
    ',' :: layout.gap level ++ writeString k ++ layout.colon ++ v.write layout level
      ++ writeMembers layout level rest

end

/-- The text of a document. -/
def Value.print (layout : Layout) (v : Value) : String := String.ofList (v.write layout 0)

/-- A document on one line. -/
def Value.compact (v : Value) : String := v.print .compact

/-- A document with each item on its own line, two spaces deeper than its bracket. -/
def Value.pretty (v : Value) : String := v.print .pretty

end Stylebook.Json
