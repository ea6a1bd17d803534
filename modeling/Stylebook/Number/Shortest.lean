/-
  Stylebook.Number.Shortest

  The shortest decimal to which a binary number is the nearest one, and among
  those of that length the nearest to the number. Every decimal between the midpoints
  to the two neighbouring magnitudes rounds to it; the midpoints do when the ordinal is
  even. For one digit, two digits and so on the two decimals around the magnitude are
  tried, in exact arithmetic; seventeen digits always suffice.
-/

import Stylebook.Number.Binary64

namespace Stylebook.Number

/-- The decimal `coefficient * 10 ^ exponent`. -/
structure Decimal where
  coefficient : Nat
  exponent : Int
deriving DecidableEq

/-- `coefficient * 10 ^ exponent` against a magnitude in units of `2 ^ -1075`. -/
def Decimal.compareScaled (d : Decimal) (magnitude : Nat) : Ordering :=
  if 0 ≤ d.exponent then
    compare (d.coefficient * Nat.pow 10 d.exponent.toNat * Nat.pow 2 1075) magnitude
  else
    compare (d.coefficient * Nat.pow 2 1075) (magnitude * Nat.pow 10 (-d.exponent).toNat)

/-- Whether a decimal rounds to the magnitude with this positive ordinal. -/
def Decimal.roundsTo (d : Decimal) (ordinal : Nat) : Bool :=
  let low := (scaled (ordinal - 1) + scaled ordinal) / 2
  let high := (scaled ordinal + scaled (ordinal + 1)) / 2
  if ordinal % 2 = 0 then
    d.compareScaled low != .lt && d.compareScaled high != .gt
  else
    d.compareScaled low == .gt && d.compareScaled high == .lt

/-- The greatest exponent, from `start` downwards, whose power of ten is not above the
    magnitude, looked for in `fuel` steps. -/
def leadingExponent (magnitude : Nat) (start : Int) : Nat → Int
  | 0 => start
  | fuel + 1 =>
    if (Decimal.mk 1 start).compareScaled magnitude != .gt then start
    else leadingExponent magnitude (start - 1) fuel

/-- The quotient of a magnitude by a power of ten, rounded down. -/
def floorAt (magnitude : Nat) (exponent : Int) : Nat :=
  if 0 ≤ exponent then magnitude / (Nat.pow 10 exponent.toNat * Nat.pow 2 1075)
  else magnitude * Nat.pow 10 (-exponent).toNat / Nat.pow 2 1075

/-- Of the two decimals with this exponent around a magnitude, the nearer one that
    rounds to it; the even one of two equally near. -/
def neighbour? (ordinal : Nat) (exponent : Int) : Option Decimal :=
  let magnitude := scaled ordinal
  let below : Decimal := ⟨floorAt magnitude exponent, exponent⟩
  let above : Decimal := ⟨below.coefficient + 1, exponent⟩
  let twiceMiddle : Decimal := ⟨2 * below.coefficient + 1, exponent⟩
  match below.roundsTo ordinal, above.roundsTo ordinal with
  | true, true =>
    match twiceMiddle.compareScaled (2 * magnitude) with
    | .gt => some below
    | .lt => some above
    | .eq => some (if below.coefficient % 2 = 0 then below else above)
  | true, false => some below
  | false, true => some above
  | false, false => none

/-- A decimal without the zeros at the end of its coefficient, at most `fuel` of
    them. -/
def Decimal.stripZeros (d : Decimal) : Nat → Decimal
  | 0 => d
  | fuel + 1 =>
    if d.coefficient % 10 = 0 then
      Decimal.stripZeros ⟨d.coefficient / 10, d.exponent + 1⟩ fuel
    else d

/-- The shortest decimal that rounds to the magnitude with this ordinal. -/
def shortest (ordinal : Nat) : Decimal :=
  if ordinal = 0 then ⟨0, 0⟩
  else
    let lead := leadingExponent (scaled ordinal) 308 640
    match (List.range 17).findSome? fun (n : Nat) => neighbour? ordinal (lead - n) with
    | some d => d.stripZeros 17
    | none => ⟨0, 0⟩

end Stylebook.Number
