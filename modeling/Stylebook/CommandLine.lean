/-
  Stylebook.CommandLine

  The command line: flags, options with a value, and words, in any order. The
  arguments are read from the left by `step`.

  The value of an option may stand in the next argument. Such a value is settled,
  that is checked and recorded, only when the next flag, option or word is met, or
  the line ends. So an argument that is no option at all, or a flag with a value,
  is reported even where the value before it is bad, while every other fault and
  the requests for help and version come in the order in which they are met.
-/

import Stylebook.CommandLine.Help
import Stylebook.Kind
import Stylebook.Text.Containment
import Stylebook.Text.Visible

namespace Stylebook.CommandLine

/-! ## What a line says -/

/-- What a command line asks for. -/
structure Options where
  words : List String
  json : Bool
  list : Bool
  kind : Option Kind
  directory : Option String
deriving DecidableEq, Repr

namespace Options

/-- The words as one query; none if there is nothing but white space in it. -/
def query? (o : Options) : Option String :=
  let query := " ".intercalate o.words
  if Text.allBlank query then none else some query

/-- The collections asked for. -/
def kinds (o : Options) : List Kind :=
  match o.kind with
  | some k => [k]
  | none => Kind.all

end Options

/-- A line that cannot be understood. -/
inductive Fault where
  | unknownArgument (argument : String)
  | invalidValue
  | unknownKind (kind : UnknownKind)
  | tooManyValues
  | conflict
deriving DecidableEq, Repr

/-- Why the reading of a line ends before it asks for something to be done. -/
inductive Stop where
  | help
  | version
  | fault (f : Fault)
deriving DecidableEq, Repr

/-! ## Wording -/

/-- A part of a report that a terminal shows in bold letters. -/
def bold (text : String) : String := "\x1b[1m" ++ text ++ "\x1b[0m"

/-- The report of a fault, as it is sent to a terminal. Of a name that is no collection's these
    are the words in which it is reported. The wordings of the other faults stand in for longer
    ones, and neither tips nor the usage follow them. -/
def Fault.report (f : Fault) : String :=
  bold "error:" ++ " "
    ++ match f with
      | .unknownArgument argument => "unexpected argument '" ++ bold argument ++ "' found"
      | .invalidValue => "a value is required and none was supplied"
      | .unknownKind kind =>
        "invalid value '" ++ bold kind.name ++ "' for '" ++ bold "--type <KIND>" ++ "': "
          ++ kind.message
      | .tooManyValues => "unexpected value for a flag found"
      | .conflict => "the arguments cannot be used together"

/-- How the hint behind each report starts. -/
def hintOpening : String := "\n\nFor more information"

/-- The hint behind each report. -/
def hint : String := hintOpening ++ ", try '" ++ bold "--help" ++ "'.\n"

/-- What a terminal shows of a report and the hint behind it. A sequence that an
    argument opens and does not end may take all that follows, up to the bold
    letters of the hint. -/
def Fault.shown (f : Fault) : String := Text.visible (f.report ++ hint)

/-- The wording of a fault: what is shown before the hint. -/
def Fault.message (f : Fault) : String :=
  String.ofList (Text.before hintOpening.toList f.shown.toList)

/-! ## Names of options -/

/-- An option without a value. -/
inductive Flag where
  | json
  | list
deriving DecidableEq, Repr

/-- An option with a value. -/
inductive Slot where
  | kind
  | directory
deriving DecidableEq, Repr

/-- What the name of an option stands for. -/
inductive Switch where
  | flag (f : Flag)
  | slot (s : Slot)
  | help
  | version
deriving DecidableEq, Repr

/-- The option with a long name. -/
def longSwitch? (name : List Char) : Option Switch :=
  if name = "json".toList then some (.flag .json)
  else if name = "list".toList then some (.flag .list)
  else if name = "type".toList then some (.slot .kind)
  else if name = "data-dir".toList then some (.slot .directory)
  else if name = "help".toList then some .help
  else if name = "version".toList then some .version
  else none

/-- The option with a short name. -/
def shortSwitch? (letter : Char) : Option Switch :=
  if letter = 'j' then some (.flag .json)
  else if letter = 'l' then some (.flag .list)
  else if letter = 't' then some (.slot .kind)
  else if letter = 'd' then some (.slot .directory)
  else if letter = 'h' then some .help
  else if letter = 'V' then some .version
  else none

/-! ## Reading a line -/

/-- A value that is looked for in the next argument, or has been found there and is
    not settled. -/
inductive Pending where
  | nothing
  | awaited (slot : Slot)
  | found (slot : Slot) (value : String)
deriving DecidableEq, Repr

/-- What has been read of a line. -/
structure State where
  options : Options
  pending : Pending
  /-- Whether only words may follow. -/
  wordsOnly : Bool
deriving DecidableEq, Repr

/-- Before the first argument. -/
def State.start : State := ⟨⟨[], false, false, none, none⟩, .nothing, false⟩

/-- Records the value of an option. A second value is refused before it is looked
    at. -/
def give (o : Options) (slot : Slot) (value : String) : Except Stop Options :=
  match slot with
  | .kind =>
    if o.kind.isSome then .error (.fault .conflict)
    else
      match Kind.ofName value with
      | .error unknown => .error (.fault (.unknownKind unknown))
      | .ok k => .ok { o with kind := some k }
  | .directory =>
    if o.directory.isSome then .error (.fault .conflict)
    else if value = "" then .error (.fault .invalidValue)
    else .ok { o with directory := some value }

/-- Records a flag, which may be given once. -/
def raise (o : Options) (flag : Flag) : Except Stop Options :=
  match flag with
  | .json => if o.json then .error (.fault .conflict) else .ok { o with json := true }
  | .list => if o.list then .error (.fault .conflict) else .ok { o with list := true }

/-- The options with the pending value settled. -/
def State.settle (s : State) : Except Stop Options :=
  match s.pending with
  | .nothing => .ok s.options
  | .awaited _ => .error (.fault .invalidValue)
  | .found slot value => give s.options slot value

/-- A word. -/
def word (s : State) (w : String) : Except Stop State := do
  let o ← s.settle
  return { s with options := { o with words := o.words ++ [w] }, pending := .nothing }

/-- An option that takes no value here: a flag, a value to be looked for in the next
    argument, or a request. -/
def bare (s : State) (switch : Switch) : Except Stop State := do
  let o ← s.settle
  match switch with
  | .flag flag => return { s with options := ← raise o flag, pending := .nothing }
  | .slot slot => return { s with options := o, pending := .awaited slot }
  | .help => throw .help
  | .version => throw .version

/-- An option with its value attached. -/
def attached (s : State) (slot : Slot) (value : String) : Except Stop State := do
  let o ← s.settle
  return { s with options := ← give o slot value, pending := .nothing }

/-- An argument that starts with two hyphens; `argument` is all of it, `body` what
    follows them. A value follows the first equals sign. -/
def longOption (s : State) (argument : String) (body : List Char) : Except Stop State :=
  match longSwitch? (body.takeWhile (· != '=')), body.dropWhile (· != '=') with
  | none, _ => .error (.fault (.unknownArgument argument))
  | some switch, [] => bare s switch
  | some (.slot slot), _ :: value => attached s slot (String.ofList value)
  | some _, _ :: _ => .error (.fault .tooManyValues)

/-- The value attached to a short name, without the equals sign that may stand
    before it. -/
def attachedValue : List Char → String
  | '=' :: value => String.ofList value
  | value => String.ofList value

/-- The short names in an argument that starts with one hyphen. An option with a
    value takes all that follows it. -/
def shortOptions (s : State) (argument : String) : List Char → Except Stop State
  | [] => .ok s
  | letter :: rest =>
    match shortSwitch? letter with
    | none => .error (.fault (.unknownArgument argument))
    | some (.slot slot) =>
      if rest = [] then bare s (.slot slot) else attached s slot (attachedValue rest)
    | some switch => do shortOptions (← bare s switch) argument rest

/-- An argument that is not an option: the value that is looked for, or a word. -/
def plain (s : State) (argument : String) : Except Stop State :=
  match s.pending with
  | .awaited slot => .ok { s with pending := .found slot argument }
  | _ => word s argument

/-- Reads one argument. -/
def step (s : State) (argument : String) : Except Stop State :=
  if s.wordsOnly then word s argument
  else
    match argument.toList with
    | ['-', '-'] => .ok { s with wordsOnly := true }
    | '-' :: '-' :: body => longOption s argument body
    | ['-'] => plain s argument
    | '-' :: letters => shortOptions s argument letters
    | _ => plain s argument

/-- Reads a command line. Words are refused with `--list`, once all is read. -/
def parse (arguments : List String) : Except Stop Options := do
  let s ← arguments.foldlM step State.start
  let o ← s.settle
  if o.list && !o.words.isEmpty then throw (.fault .conflict)
  return o

end Stylebook.CommandLine
