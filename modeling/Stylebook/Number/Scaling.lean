/-
  Stylebook.Number.Scaling

  Decimals in binary arithmetic. The coefficient is rounded to a binary number first, and that
  is multiplied by a power of ten or divided by one, which has been rounded as well. So a
  decimal comes to a number near it, and not always to the nearest one.

  Powers of ten reach as far up as the numbers do. A lower exponent takes several divisions;
  a higher one is beyond the largest number, of zero apart.
-/

import Stylebook.Number.Binary64

namespace Stylebook.Number

/-- The exponent of the greatest power of ten. -/
def greatestPower : Nat := 308

namespace Binary64

/-- The number nearest to a power of ten. -/
def powerOfTen? (exponent : Nat) : Option Binary64 := ofQuotient? false (Nat.pow 10 exponent) 1

/-- A number divided by the greatest power of ten, so many times or until zero is left. -/
def divideDown? : Binary64 → Nat → Option Binary64
  | x, 0 => some x
  | x, times + 1 =>
    if x.ordinal = 0 then some x
    else do
      let power ← powerOfTen? greatestPower
      let y ← x.div? power
      y.divideDown? times

/-- A number times a power of ten. -/
def scale? (x : Binary64) (exponent : Int) : Option Binary64 :=
  if 0 ≤ exponent then
    if exponent ≤ greatestPower then do
      let power ← powerOfTen? exponent.toNat
      x.mul? power
    else if x.ordinal = 0 then some x
    else none
  else do
    -- All divisions but the last are by the greatest power.
    let y ← x.divideDown? ((exponent.natAbs - 1) / greatestPower)
    let power ← powerOfTen? ((exponent.natAbs - 1) % greatestPower + 1)
    y.div? power

/-- The number that `coefficient * 10 ^ exponent` comes to, with a sign; `none` when it lies
    beyond the largest. -/
def ofDecimal? (negative : Bool) (coefficient : Nat) (exponent : Int) : Option Binary64 := do
  let x ← ofQuotient? negative coefficient 1
  x.scale? exponent

end Binary64

end Stylebook.Number
