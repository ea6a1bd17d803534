/-
  Stylebook.Json.Numeral

  Numerals: the spelling of a number as digits, fraction and exponent, and the
  number it is read as. A numeral without fraction and exponent is an integer if
  64 bits hold it. Every other one, and minus zero, is a float: its digits are cut
  to a word of 64 bits, and what they come to in binary arithmetic is near the
  value of the numeral, if that is in range.
-/

import Stylebook.Json.Scan
import Stylebook.Number.Scaling

namespace Stylebook.Json

open Stylebook.Number (Binary64 Decimal)

/-- The spelling of a number. No fraction and an empty one are the same. -/
structure Numeral where
  negative : Bool
  whole : List Char
  fraction : List Char
  /-- The sign and the digits of the exponent. -/
  exponent : Option (Bool × List Char)
deriving DecidableEq

/-! ## Value -/

/-- The value of a row of digits. -/
def digitsValue (digits : List Char) : Nat := Nat.ofDigitChars 10 digits 0

/-- The power of ten that an exponent stands for. -/
def exponentValue : Option (Bool × List Char) → Int
  | none => 0
  | some (true, digits) => -(digitsValue digits : Int)
  | some (false, digits) => digitsValue digits

/-- The integer that a numeral is read as: one that an unsigned word of 64 bits
    holds, or a negative one that a signed word holds. -/
def Numeral.toInt? (n : Numeral) : Option Int :=
  if n.fraction = [] ∧ n.exponent = none then
    let value := digitsValue n.whole
    if n.negative then
      if 0 < value ∧ value ≤ negativeLimit then some (-(value : Int)) else none
    else if value < wordLimit then some value
    else none
  else none

/-- Digits that go into a significand as long as a word of 64 bits holds it: the significand
    with them, and the digits that are left. -/
def takeDigits (significand : Nat) : List Char → Nat × List Char
  | [] => (significand, [])
  | d :: rest =>
    if 10 * significand + (d.toNat - '0'.toNat) < wordLimit then
      takeDigits (10 * significand + (d.toNat - '0'.toNat)) rest
    else (significand, d :: rest)

/-- The decimal that a numeral is cut to. Digits that are left of the whole part raise the
    exponent, those of the fraction are dropped. -/
def Numeral.cut (n : Numeral) : Decimal :=
  let whole := takeDigits 0 n.whole
  let fraction := takeDigits whole.1 n.fraction
  { coefficient := fraction.1
    exponent := exponentValue n.exponent + whole.2.length
      - (n.fraction.length - fraction.2.length : Int) }

/-- The largest exponent that is read to its end. -/
def exponentLimit : Nat := 2147483647

/-- The float that a numeral is read as; none if it is beyond the largest. An exponent past
    the limit leaves zero or is out of range, whatever the digits before it. -/
def Numeral.toFloat? (n : Numeral) : Option Binary64 :=
  if (exponentValue n.exponent).natAbs ≤ exponentLimit then
    Binary64.ofDecimal? n.negative n.cut.coefficient n.cut.exponent
  else if n.cut.coefficient = 0 ∨ exponentValue n.exponent < 0 then some (.zero n.negative)
  else none

/-- The number that a numeral is read as; none if it is out of range. -/
def Numeral.toNumber? (n : Numeral) : Option Number :=
  match n.toInt? with
  | some i => some (.int i)
  | none => n.toFloat?.map .float

/-! ## Reading -/

/-- Reads the digits before the point: one zero, or digits that start with another
    one. -/
def wholePart : Reader (List Char)
  | [] => failAtEnd .endInValue
  | c :: s =>
    if c = '0' then
      match s with
      | d :: _ => if d.isDigit then failAt .invalidNumber s else .ok (['0'], s)
      | [] => .ok (['0'], [])
    else if c.isDigit then
      .ok (c :: s.takeWhile Char.isDigit, s.dropWhile Char.isDigit)
    else failAt .invalidNumber (c :: s)

/-- Reads one digit or more. -/
def digitRow (s : List Char) : Except Failure (List Char × List Char) :=
  match s with
  | [] => failAtEnd .endInValue
  | c :: _ =>
    if c.isDigit then .ok (s.takeWhile Char.isDigit, s.dropWhile Char.isDigit)
    else failAt .invalidNumber s

/-- Reads the fraction, if a point follows. -/
def fractionPart (s : List Char) : Except Failure (List Char × List Char) :=
  match s with
  | '.' :: rest => digitRow rest
  | _ => .ok ([], s)

/-- Takes the sign off an exponent: whether it is negative, and the rest. -/
def exponentSign (s : List Char) : Bool × List Char :=
  match s with
  | '+' :: rest => (false, rest)
  | '-' :: rest => (true, rest)
  | _ => (false, s)

/-- Reads the exponent, if its letter follows. -/
def exponentPart (s : List Char) : Except Failure (Option (Bool × List Char) × List Char) :=
  match s with
  | c :: rest =>
    if c = 'e' ∨ c = 'E' then
      match digitRow (exponentSign rest).2 with
      | .error f => .error f
      | .ok (digits, rest') => .ok (some ((exponentSign rest).1, digits), rest')
    else .ok (none, s)
  | [] => .ok (none, [])

/-- Reads a numeral whose sign has been read. -/
def numeral (negative : Bool) (s : List Char) : Except Failure (Numeral × List Char) := do
  let (whole, s) ← wholePart s
  let (fraction, s) ← fractionPart s
  let (exponent, s) ← exponentPart s
  return (⟨negative, whole, fraction, exponent⟩, s)

/-- The digits after the one with which the value of the row passes a limit. -/
def digitsPast (limit value : Nat) : List Char → List Char
  | [] => []
  | d :: rest =>
    if limit < 10 * value + (d.toNat - '0'.toNat) then rest
    else digitsPast limit (10 * value + (d.toNat - '0'.toNat)) rest

/-- What is left of a text when a numeral turns out to be out of range: what
    follows the numeral, and the digits of an exponent past the limit. -/
def Numeral.leftOver (n : Numeral) (rest : List Char) : List Char :=
  match n.exponent with
  | some (_, digits) => digitsPast exponentLimit 0 digits ++ rest
  | none => rest

/-- Reads a number whose sign has been read. -/
def number (negative : Bool) (s : List Char) : Except Failure (Value × List Char) :=
  match numeral negative s with
  | .error f => .error f
  | .ok (n, rest) =>
    match n.toNumber? with
    | some x => .ok (.number x, rest)
    | none => fail .numberOutOfRange (n.leftOver rest) 0

end Stylebook.Json
