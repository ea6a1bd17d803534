/-
  Stylebook.Loading

  Loading collections from a data directory. Each has its own file. A missing
  file is an empty collection; a file that cannot be read or does not hold the
  collection is a fault that names it. Loading several collections stops at the
  first fault.
-/

import Stylebook.Catalog
import Stylebook.Disk

namespace Stylebook

/-- A data file that is there and cannot be used. -/
inductive LoadFault where
  | malformed (path : String) (fault : Json.Fault)
  | unreadable (path : String) (fault : ReadFault)
deriving DecidableEq

namespace LoadFault

/-- The wording of the fault behind a load that failed. -/
def cause : LoadFault → String
  | .malformed _ fault => fault.message
  | .unreadable _ fault => fault.message

/-- The wording of a load that failed. -/
def message : LoadFault → String
  | .malformed path fault => "malformed data in " ++ path ++ ": " ++ fault.message
  | .unreadable path fault => "failed to read " ++ path ++ ": " ++ fault.message

/-- The path of the file that failed to load. -/
def path : LoadFault → String
  | .malformed path _ => path
  | .unreadable path _ => path

end LoadFault

/-- The path of a collection's file. -/
def Kind.path (k : Kind) (directory : String) : String := joinPath directory k.fileName

/-- The entries in the text of a data file. -/
def Kind.parse (k : Kind) (text : String) : Except Json.Fault (List (Entry k)) :=
  match Json.parse text with
  | .error f => .error f
  | .ok document =>
    match k.entriesIn document with
    | .error m => .error (.mistyped m)
    | .ok entries => .ok entries

/-- The entries of a collection, from what reading its file came to. -/
def Kind.ofOutcome (k : Kind) (path : String) : ReadOutcome → Except LoadFault (List (Entry k))
  | .missing => .ok []
  | .failed fault => .error (.unreadable path fault)
  | .text content =>
    match k.parse content with
    | .error fault => .error (.malformed path fault)
    | .ok entries => .ok entries

/-- Loads one collection. -/
def Kind.load (k : Kind) (disk : Disk) (directory : String) :
    Except LoadFault (List (Entry k)) :=
  k.ofOutcome (k.path directory) (disk.read (k.path directory))

/-- Loads the collections of a list of kinds, in its order; the others stay empty. -/
def Catalog.load (disk : Disk) (directory : String) (kinds : List Kind) :
    Except LoadFault Catalog :=
  kinds.foldlM (fun c k => (k.load disk directory).map (c.set k)) Catalog.empty

end Stylebook
