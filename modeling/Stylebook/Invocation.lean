/-
  Stylebook.Invocation

  One call of the program: what it prints, and how it ends. `run` gives the
  output of a call whose command line was understood; `outcome` adds the command
  line before it and the exit code and the two output streams behind it.
-/

import Stylebook.CommandLine
import Stylebook.Loading
import Stylebook.Report.Found
import Stylebook.Report.Listing
import Stylebook.Settings

namespace Stylebook.Invocation

open CommandLine (Options Stop)

/-- Why a run gives no output. -/
inductive Fault where
  | noQuery
  | settings (fault : Settings.Fault)
  | load (fault : LoadFault)
deriving DecidableEq

namespace Fault

/-- The wording of a fault. -/
def message : Fault → String
  | .noQuery => "no search query given"
  | .settings fault => fault.message
  | .load fault => fault.message

/-- The wording of the fault behind a fault, if there is one. -/
def cause? : Fault → Option String
  | .noQuery => none
  | .settings _ => none
  | .load fault => some fault.cause

end Fault

/-- What a run is for. -/
inductive Task where
  | listing
  | search (query : String)
deriving DecidableEq, Repr

/-- The task that a command line sets. -/
def taskOf (o : Options) : Except Fault Task :=
  if o.list then .ok .listing
  else
    match o.query? with
    | some query => .ok (.search query)
    | none => .error .noQuery

/-- The data directory of a run. -/
def directoryOf (s : Surroundings) (o : Options) : Except Fault String :=
  match Settings.directory s o.directory with
  | .ok directory => .ok directory
  | .error fault => .error (.settings fault)

/-- The catalog of a run. -/
def catalogOf (s : Surroundings) (o : Options) (directory : String) : Except Fault Catalog :=
  match Catalog.load s.disk directory o.kinds with
  | .ok catalog => .ok catalog
  | .error fault => .error (.load fault)

/-- What a task prints of a catalog. -/
def render (task : Task) (json : Bool) (catalog : Catalog) : String :=
  match task with
  | .listing => Report.ofCatalog catalog json
  | .search query => Report.ofFinding (catalog.search query) json

/-- The output of a run. The query is looked for first, then the data directory,
    then the data. -/
def run (s : Surroundings) (o : Options) : Except Fault String := do
  let task ← taskOf o
  let directory ← directoryOf s o
  let catalog ← catalogOf s o directory
  return render task o.json catalog

/-- How a call ends. Lines of a log are left out of `errors`; one of them, which is written
    unless the log is turned off, warns that the data directory does not exist. -/
structure Outcome where
  exitCode : UInt32
  output : String
  errors : String
deriving DecidableEq, Repr

/-- The end of a call that fails in its run, without the lines of a log. -/
def failed (fault : Fault) : Outcome where
  exitCode := 1
  output := ""
  errors :=
    match fault with
    | .noQuery => fault.message ++ "\n" ++ CommandLine.usage ++ "\n"
    | _ =>
      "Error: " ++ fault.message ++ "\n"
        ++ match fault.cause? with
          | some cause => "\nCaused by:\n    " ++ cause ++ "\n"
          | none => ""

/-- The end of a call whose command line asks for nothing to be run. What is shown of a fault
    is the report of this library, see `CommandLine.Fault.report`. -/
def stopped : Stop → Outcome
  | .help => ⟨0, CommandLine.helpText, ""⟩
  | .version => ⟨0, CommandLine.versionText, ""⟩
  | .fault fault => ⟨2, "", fault.shown⟩

/-- One call of the program, without the lines of a log. -/
def outcome (s : Surroundings) (arguments : List String) : Outcome :=
  match CommandLine.parse arguments with
  | .error stop => stopped stop
  | .ok options =>
    match run s options with
    | .ok output => ⟨0, output ++ "\n", ""⟩
    | .error fault => failed fault

end Stylebook.Invocation
