/-
  Stylebook.Main

  The program. It looks up what a call needs of the world (the variable, the place
  of the program, the usual places, the data files asked for), hands it over as
  `Surroundings`, and prints the outcome.
-/

import Stylebook.Invocation

namespace Stylebook

/-- A fault of the system as a fault of reading. Its number may come negated. -/
def faultOf (number : UInt32) (message : String) : ReadFault :=
  let code := min number (0 - number)
  if code = 20 then .notADirectory
  else if code = 21 then .isADirectory
  else if code = 36 then .nameTooLong
  else .system message

/-- What an error of reading comes to. -/
def outcomeOf (error : IO.Error) : ReadOutcome :=
  match error with
  | .noFileOrDirectory .. => .missing
  | .inappropriateType _ code _ => .failed (faultOf code (toString error))
  | .invalidArgument _ code _ => .failed (faultOf code (toString error))
  | _ => .failed (.system (toString error))

/-- Reads a file. -/
def readFile (path : String) : IO ReadOutcome := do
  if '\x00' ∈ path.toList then return .failed .nulInName
  try
    return .ofBytes (← IO.FS.readBinFile path)
  catch error => return outcomeOf error

/-- Whether a path leads to a directory: reading it as a file says so. -/
def isDirectory (path : String) : IO Bool :=
  return (← readFile path) == .failed .isADirectory

/-- The file system as far as a call looks at it: the usual places, and the files
    of the collections asked for. -/
def lookAround (arguments : List String) : IO Surroundings := do
  let setting ← IO.getEnv "BLOG_STYLE_DATA_DIR"
  let programDirectory := (← IO.appPath).parent.map toString
  let bare : Surroundings := ⟨setting, programDirectory, ⟨fun _ => .missing, fun _ => false⟩⟩
  let places ← (Settings.usualPlaces bare).filterM isDirectory
  let s : Surroundings := ⟨setting, programDirectory, ⟨fun _ => .missing, places.contains⟩⟩
  match CommandLine.parse arguments with
  | .error _ => return s
  | .ok options =>
    match Settings.directory s options.directory with
    | .error _ => return s
    | .ok directory =>
      let files ← options.kinds.mapM fun k => do
        return (k.path directory, ← readFile (k.path directory))
      return ⟨setting, programDirectory,
        ⟨fun path => (files.lookup path).getD .missing, places.contains⟩⟩

end Stylebook

/-- Runs the program on its arguments. -/
def main (arguments : List String) : IO UInt32 := do
  let outcome := Stylebook.Invocation.outcome (← Stylebook.lookAround arguments) arguments
  IO.print outcome.output
  IO.eprint outcome.errors
  return outcome.exitCode
