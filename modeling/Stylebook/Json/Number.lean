/-
  Stylebook.Json.Number

  The numbers of a JSON document: integers that fit 64 bits, and binary
  floating-point numbers for all the others. That an integer fits is part of the
  number, so a document cannot hold another one. `Number.spell` writes them. A float
  is written with its shortest digits: positionally, with at least one digit
  after the point, while the exponent of its first digit lies from -5 to 15, and
  in scientific notation with a signed exponent outside.
-/

import Stylebook.Number.Shortest

namespace Stylebook.Json

open Stylebook.Number (Binary64 Decimal shortest)

/-- The least integer that an unsigned word of 64 bits does not hold. -/
def wordLimit : Nat := 0x10000000000000000

/-- The magnitude of the least integer that a signed word of 64 bits holds. -/
def negativeLimit : Nat := 0x8000000000000000

/-- An integer that a word of 64 bits holds, a signed or an unsigned one. -/
def FitsWord (n : Int) : Prop := -(negativeLimit : Int) ≤ n ∧ n < wordLimit

instance (n : Int) : Decidable (FitsWord n) := inferInstanceAs (Decidable (_ ∧ _))

/-- A number of a JSON document. -/
inductive Number where
  | word (n : Int) (fits : FitsWord n)
  | float (x : Binary64)
deriving DecidableEq

theorem fitsWord_emod (n : Int) : FitsWord (n % wordLimit) := by
  have hpos : (0 : Int) < wordLimit := by decide
  have hle : -(negativeLimit : Int) ≤ 0 := by decide
  exact ⟨Int.le_trans hle (Int.emod_nonneg n (by omega)), Int.emod_lt_of_pos n hpos⟩

/-- An integer as a number. Of one that does not fit, an unsigned word keeps what is
    left after division by its limit. -/
def Number.int (n : Int) : Number :=
  if fits : FitsWord n then .word n fits else .word (n % wordLimit) (fitsWord_emod n)

theorem Number.int_eq_word {n : Int} (fits : FitsWord n) : Number.int n = .word n fits :=
  dif_pos fits

/-- The least and the greatest exponent of the first digit that is written
    positionally. -/
def leastPositional : Int := -5

@[inherit_doc leastPositional]
def greatestPositional : Int := 15

/-- An integer in decimal digits. -/
def spellInt (n : Int) : List Char :=
  if n < 0 then '-' :: Nat.toDigits 10 n.natAbs else Nat.toDigits 10 n.natAbs

/-- Digits with the point after the digit of exponent zero, where the first digit
    has the exponent `lead`. -/
def spellPositional (digits : List Char) (lead : Int) : List Char :=
  if lead < 0 then
    '0' :: '.' :: List.replicate (-lead - 1).toNat '0' ++ digits
  else
    let whole := lead.toNat + 1
    if digits.length ≤ whole then
      digits ++ List.replicate (whole - digits.length) '0' ++ ['.', '0']
    else digits.take whole ++ '.' :: digits.drop whole

/-- Digits with the point after the first one, and the exponent of the first digit
    with its sign. -/
def spellScientific (digits : List Char) (lead : Int) : List Char :=
  digits.take 1
    ++ (if digits.length ≤ 1 then [] else '.' :: digits.drop 1)
    ++ 'e' :: (if lead < 0 then '-' else '+') :: Nat.toDigits 10 lead.natAbs

/-- A decimal with its digits placed by the exponent of the first one. -/
def spellDecimal (d : Decimal) : List Char :=
  let digits := Nat.toDigits 10 d.coefficient
  let lead := d.exponent + (digits.length - 1 : Nat)
  if leastPositional ≤ lead ∧ lead ≤ greatestPositional then spellPositional digits lead
  else spellScientific digits lead

/-- A float in its shortest digits. -/
def spellFloat (x : Binary64) : List Char :=
  (if x.negative then ['-'] else []) ++ spellDecimal (shortest x.ordinal)

/-- A number as a document shows it. -/
def Number.spell : Number → List Char
  | .word n _ => spellInt n
  | .float x => spellFloat x

end Stylebook.Json
