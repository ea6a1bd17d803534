/-
  Stylebook.Disk.Tree

  A file system held in memory. A location is a list of names, innermost first,
  so that the parent of a location is its tail; the root is the empty list. A
  path is resolved name by name from the root or from the current directory, and
  each step needs a directory to start from.
-/

import Stylebook.Disk

namespace Stylebook

/-- The names that lead to a place, the innermost first. -/
abbrev Location := List String

/-- What stands at a location. -/
inductive Node where
  | file (bytes : ByteArray)
  | directory

/-- A file system with a current directory. -/
structure Tree where
  nodes : List (Location × Node)
  here : Location

/-- Why a path leads nowhere. -/
inductive DeadEnd where
  | missing
  | fault (f : ReadFault)

namespace Tree

/-! ## Looking up -/

/-- What stands at a location; the root is always a directory. -/
def node? (t : Tree) : Location → Option Node
  | [] => some .directory
  | location => t.nodes.lookup location

/-- The longest name that can be looked up, and the shortest path that cannot, in
    bytes. -/
def longestName : Nat := 255

@[inherit_doc longestName]
def tooLongPath : Nat := 4096

/-- One step from a location to a name in it. -/
def enter (t : Tree) (location : Location) (name : String) : Except DeadEnd Location :=
  match t.node? location with
  | none => .error .missing
  | some (.file _) => .error (.fault .notADirectory)
  | some .directory =>
    if name = "" ∨ name = "." then .ok location
    else if name = ".." then .ok location.tail
    else if longestName < name.utf8ByteSize then .error (.fault .nameTooLong)
    else .ok (name :: location)

/-- The names in a path. -/
def namesOf (path : String) : List String :=
  (path.toList.splitOn '/').map String.ofList

/-- The location that a path leads to. -/
def resolve (t : Tree) (path : String) : Except DeadEnd Location :=
  if '\x00' ∈ path.toList then .error (.fault .nulInName)
  else if tooLongPath ≤ path.utf8ByteSize then .error (.fault .nameTooLong)
  else if path = "" then .error .missing
  else
    (namesOf path).foldlM t.enter (if path.toList.head? = some '/' then [] else t.here)

/-- Reads the file that a path leads to. -/
def read (t : Tree) (path : String) : ReadOutcome :=
  match t.resolve path with
  | .error .missing => .missing
  | .error (.fault f) => .failed f
  | .ok location =>
    match t.node? location with
    | none => .missing
    | some .directory => .failed .isADirectory
    | some (.file bytes) => .ofBytes bytes

/-- Whether a path leads to a directory. -/
def isDirectory (t : Tree) (path : String) : Bool :=
  match t.resolve path with
  | .error _ => false
  | .ok location =>
    match t.node? location with
    | some .directory => true
    | _ => false

/-- The tree as the program sees it. -/
def toDisk (t : Tree) : Disk := ⟨t.read, t.isDirectory⟩

/-! ## Changing -/

/-- A tree with one node put at a location, in place of the one there. -/
def place (t : Tree) (location : Location) (node : Node) : Tree :=
  { t with nodes := (location, node) :: t.nodes.filter (·.1 != location) }

/-- A tree in which a location and all above it are directories, made where nothing
    stands. -/
def makeDirectory (t : Tree) : Location → Tree
  | [] => t
  | name :: parent =>
    let t := t.makeDirectory parent
    match t.node? (name :: parent) with
    | some _ => t
    | none => t.place (name :: parent) .directory

/-- A tree with a file written, and the directories above it made. -/
def write (t : Tree) (location : Location) (bytes : ByteArray) : Tree :=
  (t.makeDirectory location.tail).place location (.file bytes)

/-- A tree without a location and all below it. -/
def remove (t : Tree) (location : Location) : Tree :=
  { t with nodes := t.nodes.filter fun node => !location.isSuffixOf node.1 }

end Tree

end Stylebook
