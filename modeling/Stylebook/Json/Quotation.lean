/-
  Stylebook.Json.Quotation

  Strings of a JSON document, between their quotes: `escapeChar` writes a
  character, `quoted` reads characters up to the closing quote. Written are only
  the escapes that the format demands; read are all of them, a pair of surrogate
  escapes as one character.
-/

import Stylebook.Json.Scan

namespace Stylebook.Json

/-! ## Writing -/

/-- A character inside a string. -/
def escapeChar (c : Char) : List Char :=
  if c = '"' then ['\\', '"']
  else if c = '\\' then ['\\', '\\']
  else if c = '\x08' then ['\\', 'b']
  else if c = '\x0c' then ['\\', 'f']
  else if c = '\n' then ['\\', 'n']
  else if c = '\r' then ['\\', 'r']
  else if c = '\t' then ['\\', 't']
  else if c.toNat < 0x20 then
    ['\\', 'u', '0', '0', Nat.digitChar (c.toNat / 16), Nat.digitChar (c.toNat % 16)]
  else [c]

/-- A string in its quotes. -/
def writeString (s : String) : List Char := '"' :: s.toList.flatMap escapeChar ++ ['"']

/-! ## Reading -/

/-- The value of a hexadecimal digit of either case. -/
def hexDigit? (c : Char) : Option Nat :=
  if '0' ≤ c ∧ c ≤ '9' then some (c.toNat - '0'.toNat)
  else if 'a' ≤ c ∧ c ≤ 'f' then some (c.toNat - 'a'.toNat + 10)
  else if 'A' ≤ c ∧ c ≤ 'F' then some (c.toNat - 'A'.toNat + 10)
  else none

/-- The value of four hexadecimal digits. -/
def hexValue? (a b c d : Char) : Option Nat := do
  return (((← hexDigit? a) * 16 + (← hexDigit? b)) * 16 + (← hexDigit? c)) * 16 + (← hexDigit? d)

/-- Reads the four digits of an escape. Four bytes are taken at once, whatever
    they are; fewer than four end the text. -/
def hexCode (s : List Char) : Except Failure (Nat × List Char) :=
  if (utf8 (s.take 4)).length < 4 then failAtEnd .endInString
  else
    match s with
    | a :: b :: c :: d :: rest =>
      match hexValue? a b c d with
      | some n => .ok (n, rest)
      | none => fail .invalidEscape s 4
    | _ => fail .invalidEscape s 4

/-- Whether a code stands for the first half of a character. -/
def isLeading (n : Nat) : Bool := 0xD800 ≤ n && n ≤ 0xDBFF

/-- Whether a code stands for the second half of a character. -/
def isTrailing (n : Nat) : Bool := 0xDC00 ≤ n && n ≤ 0xDFFF

/-- Reads the escape that has to follow one for the first half of a character. -/
def secondHalf (first : Nat) (s : List Char) : Except Failure (Char × List Char) :=
  match s with
  | [] => failAtEnd .endInString
  | ['\\'] => failAtEnd .endInString
  | '\\' :: 'u' :: rest =>
    match hexCode rest with
    | .error f => .error f
    | .ok (n, rest') =>
      if isTrailing n then
        .ok (Char.ofNat ((first - 0xD800) * 0x400 + (n - 0xDC00) + 0x10000), rest')
      else fail .loneSurrogate rest' 0
  | '\\' :: rest => failAt .endOfHexEscape rest
  | _ => failAt .endOfHexEscape s

/-- Reads an escape by number, after its letter. -/
def numberedEscape (s : List Char) : Except Failure (Char × List Char) :=
  match hexCode s with
  | .error f => .error f
  | .ok (n, rest) =>
    if isTrailing n then fail .loneSurrogate rest 0
    else if isLeading n then secondHalf n rest
    else .ok (Char.ofNat n, rest)

/-- Reads an escape, after the backslash. -/
def escape (s : List Char) : Except Failure (Char × List Char) :=
  match s with
  | [] => failAtEnd .endInString
  | '"' :: rest => .ok ('"', rest)
  | '\\' :: rest => .ok ('\\', rest)
  | '/' :: rest => .ok ('/', rest)
  | 'b' :: rest => .ok ('\x08', rest)
  | 'f' :: rest => .ok ('\x0c', rest)
  | 'n' :: rest => .ok ('\n', rest)
  | 'r' :: rest => .ok ('\r', rest)
  | 't' :: rest => .ok ('\t', rest)
  | 'u' :: rest => numberedEscape rest
  | _ => failAt .invalidEscape s

/-- Reads one character of a string, or its closing quote. -/
def quotedStep (s : List Char) : Except Failure (Option Char × List Char) :=
  match s with
  | [] => failAtEnd .endInString
  | c :: rest =>
    if c = '"' then .ok (none, rest)
    else if c = '\\' then
      match escape rest with
      | .error f => .error f
      | .ok (e, rest') => .ok (some e, rest')
    else if c.toNat < 0x20 then failAt .controlCharacter s
    else .ok (some c, rest)

/-- Reads a string, after its opening quote. -/
def quoted : Reader String := fun s =>
  match many quotedStep s with
  | .error f => .error f
  | .ok (cs, rest) => .ok (String.ofList cs, rest)

end Stylebook.Json
