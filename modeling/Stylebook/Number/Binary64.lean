/-
  Stylebook.Number.Binary64

  Finite binary floating-point numbers of 64 bits as pure data: a sign and the
  ordinal of the magnitude among all finite magnitudes, counted from zero. The
  encoding is canonical (equal numbers are equal data, minus zero apart) and
  monotone in the ordinal, so rounding, the neighbours of a number and the
  interval that rounds to it are arithmetic on `Nat`.

  Below `2 ^ 52` an ordinal counts multiples of the least magnitude, `2 ^ -1074`;
  above, each block of `2 ^ 52` ordinals spans one power of two. `scaled` is the
  magnitude in halves of the least one, an exact natural number.
-/

namespace Stylebook.Number

/-- How many ordinals share one exponent: the fifty-second power of two. -/
def block : Nat := 0x10000000000000

/-- The number of finite magnitudes. -/
def finiteOrdinals : Nat := 2047 * block

/-- A finite binary floating-point number of 64 bits. -/
structure Binary64 where
  negative : Bool
  ordinal : Nat
  ordinal_lt : ordinal < finiteOrdinals
deriving DecidableEq

/-- The magnitude of an ordinal in units of `2 ^ -1075`. -/
def scaled (ordinal : Nat) : Nat :=
  if ordinal < block then 2 * ordinal
  else (block + ordinal % block) * Nat.pow 2 (ordinal / block)

/-- Zero with a sign. -/
def Binary64.zero (negative : Bool) : Binary64 := ⟨negative, 0, by decide⟩

/-! ## Rounding a quotient -/

/-- The quotient rounded to the nearest natural number, a half to the even one. -/
def roundHalfEven (num den : Nat) : Nat :=
  let q := num / den
  let r := num % den
  if den < 2 * r ∨ (2 * r = den ∧ q % 2 = 1) then q + 1 else q

/-- A quotient by `2 ^ exponent`, rounded. -/
def roundAt (num den : Nat) (exponent : Int) : Nat :=
  if 0 ≤ exponent then roundHalfEven num (den * Nat.pow 2 exponent.toNat)
  else roundHalfEven (num * Nat.pow 2 (-exponent).toNat) den

/-- The exponent of the power of two at or below a positive quotient. -/
def floorLog (num den : Nat) : Int :=
  let guess : Int := (Nat.log2 num : Int) - Nat.log2 den
  let below :=
    if 0 ≤ guess then den * Nat.pow 2 guess.toNat ≤ num else den ≤ num * Nat.pow 2 (-guess).toNat
  if below then guess else guess - 1

/-- The ordinal of the magnitude nearest to a positive quotient, as if there were
    no largest one. A carry out of the significand lands on the next power of two,
    which is the next ordinal. -/
def nearestOrdinal (num den : Nat) : Nat :=
  let exponent := max (-1074) (floorLog num den - 52)
  (exponent + 1074).toNat * block + roundAt num den exponent

/-- The number nearest to a quotient of natural numbers, with a sign; `none` when
    it lies beyond the largest. -/
def Binary64.ofQuotient? (negative : Bool) (num den : Nat) : Option Binary64 :=
  let ordinal := if num = 0 then 0 else nearestOrdinal num den
  if h : ordinal < finiteOrdinals then some ⟨negative, ordinal, h⟩ else none

/-! ## Multiplication and division -/

/-- The significand of a magnitude and the exponent of the power of two that it is scaled
    by. -/
def significand (ordinal : Nat) : Nat :=
  if ordinal < block then ordinal else block + ordinal % block

@[inherit_doc significand]
def binaryExponent (ordinal : Nat) : Int := (max 1 (ordinal / block) : Nat) - 1075

/-- A magnitude as a quotient of natural numbers. -/
def numerator (ordinal : Nat) : Nat :=
  significand ordinal * Nat.pow 2 (binaryExponent ordinal).toNat

@[inherit_doc numerator]
def denominator (ordinal : Nat) : Nat := Nat.pow 2 (-binaryExponent ordinal).toNat

/-- The number nearest to a product; `none` when it lies beyond the largest. -/
def Binary64.mul? (x y : Binary64) : Option Binary64 :=
  ofQuotient? (x.negative != y.negative) (numerator x.ordinal * numerator y.ordinal)
    (denominator x.ordinal * denominator y.ordinal)

/-- The number nearest to a quotient by a number other than zero; `none` when it lies beyond
    the largest. -/
def Binary64.div? (x y : Binary64) : Option Binary64 :=
  ofQuotient? (x.negative != y.negative) (numerator x.ordinal * denominator y.ordinal)
    (denominator x.ordinal * numerator y.ordinal)

end Stylebook.Number
