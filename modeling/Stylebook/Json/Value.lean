/-
  Stylebook.Json.Value

  JSON documents as trees. An object is a list of members in the order of the
  text. A tree that was just read may repeat a key inside an object; `settle`
  resolves that at every level: a key keeps the place of its first occurrence and
  the value of its last.
-/

import Stylebook.Json.Number

namespace Stylebook.Json

/-- A JSON document. -/
inductive Value where
  | null
  | bool (b : Bool)
  | number (n : Number)
  | string (s : String)
  | array (items : List Value)
  | object (members : List (String × Value))

/-- The members of an object, in order. -/
abbrev Members := List (String × Value)

/-! ## Repeated keys -/

/-- Gives a key a value: in its place if it is there, else at the end. -/
def put (key : String) (value : Value) : Members → Members
  | [] => [(key, value)]
  | (k, v) :: rest =>
    if k = key then (k, value) :: rest else (k, v) :: put key value rest

/-- Members with each key once, where it stood first, with the value it had last. -/
def collapse (members : Members) : Members :=
  members.foldl (fun settled member => put member.1 member.2 settled) []

mutual

/-- A document whose objects have each key once. -/
def Value.settle : Value → Value
  | .array items => .array (settleItems items)
  | .object members => .object (collapse (settleMembers members))
  | .null => .null
  | .bool b => .bool b
  | .number n => .number n
  | .string s => .string s

/-- Each item settled. -/
def settleItems : List Value → List Value
  | [] => []
  | v :: rest => v.settle :: settleItems rest

/-- Each member's value settled; the keys are not compared. -/
def settleMembers : Members → Members
  | [] => []
  | (k, v) :: rest => (k, v.settle) :: settleMembers rest

end

/-! ## Nesting, keys and numbers -/

mutual

/-- How many arrays and objects are open at once, at most. -/
def Value.depth : Value → Nat
  | .array items => depthItems items + 1
  | .object members => depthMembers members + 1
  | .null => 0
  | .bool _ => 0
  | .number _ => 0
  | .string _ => 0

/-- The depth of the deepest item. -/
def depthItems : List Value → Nat
  | [] => 0
  | v :: rest => max v.depth (depthItems rest)

/-- The depth of the deepest member. -/
def depthMembers : Members → Nat
  | [] => 0
  | (_, v) :: rest => max v.depth (depthMembers rest)

end

mutual

/-- No object of the document repeats a key. -/
def Value.KeysDistinct : Value → Prop
  | .array items => ItemsDistinct items
  | .object members => (members.map Prod.fst).Nodup ∧ MembersDistinct members
  | .null => True
  | .bool _ => True
  | .number _ => True
  | .string _ => True

/-- No object inside the items repeats a key. -/
def ItemsDistinct : List Value → Prop
  | [] => True
  | v :: rest => v.KeysDistinct ∧ ItemsDistinct rest

/-- No object inside the members' values repeats a key. -/
def MembersDistinct : Members → Prop
  | [] => True
  | (_, v) :: rest => v.KeysDistinct ∧ MembersDistinct rest

end

mutual

/-- The numbers in a document, in its order. -/
def Value.numbers : Value → List Number
  | .number n => [n]
  | .array items => numbersInItems items
  | .object members => numbersInMembers members
  | .null => []
  | .bool _ => []
  | .string _ => []

/-- The numbers in the items of an array. -/
def numbersInItems : List Value → List Number
  | [] => []
  | v :: rest => v.numbers ++ numbersInItems rest

/-- The numbers in the values of an object. -/
def numbersInMembers : Members → List Number
  | [] => []
  | (_, v) :: rest => v.numbers ++ numbersInMembers rest

end

end Stylebook.Json
