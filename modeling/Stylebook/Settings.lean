/-
  Stylebook.Settings

  Where the data files are: the directory given on the command line, else the one
  in the environment variable, else the first of the usual places that is a
  directory.
-/

import Stylebook.Disk

namespace Stylebook

/-- What a run finds around it. -/
structure Surroundings where
  /-- The value of the variable `BLOG_STYLE_DATA_DIR`, if it is set. -/
  setting : Option String
  /-- The directory that holds the program, if it is known. -/
  programDirectory : Option String
  disk : Disk

namespace Settings

/-- The variable that may name the data directory is set to nothing. -/
inductive Fault where
  | emptyVariable
deriving DecidableEq, Repr

/-- The wording of the fault. -/
def Fault.message : Fault → String
  | .emptyVariable => "config error: BLOG_STYLE_DATA_DIR is set but empty"

/-- The first of the usual places, also used when none of them exists. -/
def usualPlace : String := joinPath ".shared" "data"

/-- The usual places of the data directory, the first one first. -/
def usualPlaces (s : Surroundings) : List String :=
  usualPlace :: match s.programDirectory with
    | some program => [joinPath program "data", joinPath (joinPath program "..") "data"]
    | none => []

/-- The first usual place that is a directory. -/
def discover (s : Surroundings) : String :=
  ((usualPlaces s).find? s.disk.isDirectory).getD usualPlace

/-- The data directory, given the one from the command line. -/
def directory (s : Surroundings) : Option String → Except Fault String
  | some given => .ok given
  | none =>
    match s.setting with
    | some value => if value = "" then .error .emptyVariable else .ok value
    | none => .ok (discover s)

end Settings

end Stylebook
