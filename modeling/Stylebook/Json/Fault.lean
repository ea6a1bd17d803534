/-
  Stylebook.Json.Fault

  What can be wrong with a JSON text. A `Cause` is a breach of the grammar and
  has a `Position`; a `Mismatch` is a value of another type than the one wanted,
  and has a position only where the text itself is wanted as an object.

  Positions count bytes. A reader reports a failure as the text it had not yet
  consumed and the number of bytes of it that count as read; line and column are
  computed from that once, here.
-/

import Stylebook.Json.Value
import Stylebook.Text.Quoted

namespace Stylebook.Json

/-! ## Causes -/

/-- A breach of the grammar. -/
inductive Cause where
  | endInValue
  | endInObject
  | endInList
  | endInString
  | expectedValue
  | expectedIdent
  | expectedColon
  | expectedCommaOrBracket
  | expectedCommaOrBrace
  | trailingComma
  | keyNotString
  | trailingCharacters
  | invalidNumber
  | numberOutOfRange
  | invalidEscape
  | endOfHexEscape
  | loneSurrogate
  | controlCharacter
  | tooDeep
deriving DecidableEq, Repr

/-- The wording of a cause. -/
def Cause.message : Cause → String
  | .endInValue => "EOF while parsing a value"
  | .endInObject => "EOF while parsing an object"
  | .endInList => "EOF while parsing a list"
  | .endInString => "EOF while parsing a string"
  | .expectedValue => "expected value"
  | .expectedIdent => "expected ident"
  | .expectedColon => "expected `:`"
  | .expectedCommaOrBracket => "expected `,` or `]`"
  | .expectedCommaOrBrace => "expected `,` or `\x7d`"
  | .trailingComma => "trailing comma"
  | .keyNotString => "key must be a string"
  | .trailingCharacters => "trailing characters"
  | .invalidNumber => "invalid number"
  | .numberOutOfRange => "number out of range"
  | .invalidEscape => "invalid escape"
  | .endOfHexEscape => "unexpected end of hex escape"
  | .loneSurrogate => "lone leading surrogate in hex escape"
  | .controlCharacter => "control character (\\u0000-\\u001F) found while parsing a string"
  | .tooDeep => "recursion limit exceeded"

/-! ## Positions -/

/-- A place in a text: the line, counted from one, and the bytes read in it. -/
structure Position where
  line : Nat
  column : Nat
deriving DecidableEq, Repr

/-- The bytes of a text in UTF-8. -/
def utf8 (cs : List Char) : List UInt8 := cs.flatMap String.utf8EncodeChar

/-- The place after the bytes read so far; a line feed starts a new line. -/
def Position.after (bytes : List UInt8) : Position where
  line := bytes.count 10 + 1
  column := (bytes.reverse.takeWhile (· != 10)).length

/-- A breach of the grammar as a reader meets it: the text not consumed, and how
    many bytes of that text count as read. -/
structure Failure where
  cause : Cause
  rest : List Char
  ahead : Nat
deriving DecidableEq, Repr

/-- The place in a text where `rest` is left over and `ahead` bytes of it count as
    read. -/
def positionIn (text rest : List Char) (ahead : Nat) : Position :=
  let bytes := utf8 text
  Position.after (bytes.take (bytes.length - (utf8 rest).length + ahead))

/-! ## Mismatches -/

/-- What a value is, as far as a message tells it. -/
inductive Shape where
  | null
  | bool (b : Bool)
  | number (n : Number)
  | string (s : String)
  | sequence
  | map
deriving DecidableEq

/-- What a value is. -/
def Value.shape : Value → Shape
  | .null => .null
  | .bool b => .bool b
  | .number n => .number n
  | .string s => .string s
  | .array _ => .sequence
  | .object _ => .map

/-- The wording of what was found. -/
def Shape.message : Shape → String
  | .null => "null"
  | .bool true => "boolean `true`"
  | .bool false => "boolean `false`"
  | .number (.word n _) => "integer `" ++ String.ofList (spellInt n) ++ "`"
  | .number (.float x) => "floating point `" ++ String.ofList (spellFloat x) ++ "`"
  | .string s => "string " ++ Text.quote s
  | .sequence => "sequence"
  | .map => "map"

/-- What was wanted. -/
inductive Wanted where
  | map
  | sequence
  | string
deriving DecidableEq, Repr

/-- The wording of what was wanted. -/
def Wanted.message : Wanted → String
  | .map => "a map"
  | .sequence => "a sequence"
  | .string => "a string"

/-- A value of another type than the one wanted. -/
structure Mismatch where
  found : Shape
  wanted : Wanted
deriving DecidableEq

/-- The wording of a mismatch. -/
def Mismatch.message (m : Mismatch) : String :=
  "invalid type: " ++ m.found.message ++ ", expected " ++ m.wanted.message

/-! ## Faults -/

/-- What is wrong with a JSON text. -/
inductive Fault where
  | broken (cause : Cause) (position : Position)
  | mistyped (mismatch : Mismatch)
  | notAnObject (mismatch : Mismatch) (position : Position)
deriving DecidableEq

/-- The wording of a place. -/
def Position.message (p : Position) : String :=
  " at line " ++ toString p.line ++ " column " ++ toString p.column

/-- The wording of a fault. -/
def Fault.message : Fault → String
  | .broken cause position => cause.message ++ position.message
  | .mistyped mismatch => mismatch.message
  | .notAnObject mismatch position => mismatch.message ++ position.message

/-- A failure of a reader as a fault of the whole text. -/
def Failure.inText (text : List Char) (f : Failure) : Fault :=
  .broken f.cause (positionIn text f.rest f.ahead)

end Stylebook.Json
