/-
  Stylebook.Proofs.Number.Scaling

  What a decimal comes to in binary arithmetic. A product or a quotient of two numbers is the
  number that it rounds to (`Binary64.mul?_eq_some_iff`, `Binary64.div?_eq_some_iff`), so a
  decimal is rounded up to three times. Where a coefficient and a power of ten are numbers
  themselves, only the last rounding does anything, and the decimal comes to the number that it
  rounds to (`Binary64.ofDecimal?_eq_some_iff_of_exact`).

  Division never leads out of range (`Binary64.exists_ofDecimal?_of_neg`). Multiplication may,
  and the roundings before it by one part in `2 ^ 53` each decide about decimals close to the
  largest number (`Binary64.exists_ofDecimal?_of_nonneg`).
-/

import Stylebook.Number.Scaling
import Stylebook.Proofs.Number.Shortest

namespace Stylebook.Number

/-! ## Magnitudes -/

theorem scaled_eq_significand_mul (o : Nat) :
    scaled o = significand o * 2 ^ max 1 (o / block) := by
  have hblock : 0 < block := by decide
  rw [scaled, significand]
  split
  · next hlt =>
    rw [Nat.div_eq_of_lt hlt, Nat.mul_comm]
    rfl
  · next hge =>
    have hdiv : 1 ≤ o / block := (Nat.one_le_div_iff hblock).2 (Nat.not_lt.1 hge)
    rw [Nat.max_eq_right hdiv]
    rfl

theorem denominator_pos (o : Nat) : 0 < denominator o := Nat.pow_pos (by decide)

theorem numerator_pos {o : Nat} (ho : 0 < o) : 0 < numerator o := by
  refine Nat.mul_pos ?_ (Nat.pow_pos (by decide))
  rw [significand]
  split
  · exact ho
  · exact Nat.add_pos_left (by decide) _

namespace Binary64

/-- The magnitude of a number. -/
def magnitude (x : Binary64) : ℚ := scaled x.ordinal / unitsOfOne

variable {x y z : Binary64}

theorem inUnits_magnitude (x : Binary64) : inUnits x.magnitude = scaled x.ordinal :=
  div_mul_cancel₀ _ unitsOfOne_pos.ne'

theorem magnitude_nonneg (x : Binary64) : 0 ≤ x.magnitude :=
  div_nonneg (Nat.cast_nonneg _) unitsOfOne_pos.le

theorem magnitude_eq_zero_iff : x.magnitude = 0 ↔ x.ordinal = 0 := by
  have hzero : scaled 0 = 0 := rfl
  rw [magnitude, div_eq_zero_iff, or_iff_left unitsOfOne_pos.ne', Nat.cast_eq_zero, ← hzero]
  exact scaled_strictMono.injective.eq_iff

/-- The quotient of natural numbers that stands for a magnitude. -/
theorem numerator_div_denominator (x : Binary64) :
    (numerator x.ordinal / denominator x.ordinal : ℚ) = x.magnitude := by
  have hscaled : (scaled x.ordinal : ℚ)
      = significand x.ordinal * 2 ^ (binaryExponent x.ordinal + 1075) := by
    rw [scaled_eq_significand_mul, binaryExponent, Int.sub_add_cancel, zpow_natCast]
    push_cast
    rfl
  have hsplit : (2 : ℚ) ^ (binaryExponent x.ordinal + 1075)
      = 2 ^ binaryExponent x.ordinal * unitsOfOne := by
    rw [zpow_add₀ (by norm_num)]
    rfl
  rw [magnitude, hscaled, hsplit, ← mul_assoc, mul_div_cancel_right₀ _ unitsOfOne_pos.ne',
    numerator, denominator, Nat.cast_mul]
  by_cases hnonneg : 0 ≤ binaryExponent x.ordinal
  · have hone : Nat.pow 2 (-binaryExponent x.ordinal).toNat = 1 := by
      rw [Int.toNat_of_nonpos (by omega)]
    rw [cast_pow_toNat 2 hnonneg, hone, Nat.cast_one, div_one]
    rfl
  · have hone : Nat.pow 2 (binaryExponent x.ordinal).toNat = 1 := by
      rw [Int.toNat_of_nonpos (by omega)]
    rw [cast_pow_neg_toNat 2 hnonneg, hone, Nat.cast_one, mul_one, div_inv_eq_mul]
    rfl

/-! ## Multiplication and division -/

/-- A product is the number that it rounds to. -/
theorem mul?_eq_some_iff :
    x.mul? y = some z ↔ z.negative = (x.negative != y.negative) ∧
      RoundsTo (inUnits (x.magnitude * y.magnitude)) z.ordinal := by
  rw [mul?, ofQuotient?_eq_some_iff (Nat.mul_pos (denominator_pos _) (denominator_pos _)),
    Nat.cast_mul, Nat.cast_mul, mul_div_mul_comm, numerator_div_denominator,
    numerator_div_denominator]

theorem exists_mul?_iff :
    (∃ z, x.mul? y = some z) ↔ inUnits (x.magnitude * y.magnitude) < overflowBound := by
  rw [mul?, exists_ofQuotient?_iff (Nat.mul_pos (denominator_pos _) (denominator_pos _)),
    Nat.cast_mul, Nat.cast_mul, mul_div_mul_comm, numerator_div_denominator,
    numerator_div_denominator]

theorem quotient_eq_div (x y : Binary64) :
    ((numerator x.ordinal * denominator y.ordinal : Nat) : ℚ)
      / (denominator x.ordinal * numerator y.ordinal : Nat) = x.magnitude / y.magnitude := by
  rw [Nat.cast_mul, Nat.cast_mul, ← numerator_div_denominator, ← numerator_div_denominator,
    div_div_div_eq]

/-- A quotient is the number that it rounds to. -/
theorem div?_eq_some_iff (hy : 0 < y.ordinal) :
    x.div? y = some z ↔ z.negative = (x.negative != y.negative) ∧
      RoundsTo (inUnits (x.magnitude / y.magnitude)) z.ordinal := by
  rw [div?, ofQuotient?_eq_some_iff (Nat.mul_pos (denominator_pos _) (numerator_pos hy)),
    quotient_eq_div]

/-- There is a quotient by every number from one on. -/
theorem exists_div?_of_one_le (hy : 1 ≤ y.magnitude) : ∃ z, x.div? y = some z := by
  have hpos : 0 < y.ordinal := by
    refine Nat.pos_of_ne_zero fun hzero => ?_
    rw [magnitude_eq_zero_iff.2 hzero] at hy
    exact absurd hy (by norm_num)
  rw [div?, exists_ofQuotient?_iff (Nat.mul_pos (denominator_pos _) (numerator_pos hpos)),
    quotient_eq_div]
  have hle : x.magnitude / y.magnitude ≤ x.magnitude := div_le_self x.magnitude_nonneg hy
  refine (inUnits_le_inUnits.2 hle).trans_lt ?_
  rw [inUnits_magnitude]
  exact scaled_lt_overflowBound x.ordinal_lt

/-! ## Coefficients and powers of ten -/

/-- A coefficient is rounded to the number that it rounds to. -/
theorem ofQuotient?_one_eq_some_iff {negative : Bool} {c : Nat} :
    ofQuotient? negative c 1 = some x ↔ x.negative = negative ∧ RoundsTo (inUnits c) x.ordinal := by
  rw [ofQuotient?_eq_some_iff Nat.one_pos, Nat.cast_one, div_one]

theorem exists_ofQuotient?_one_iff {negative : Bool} {c : Nat} :
    (∃ x, ofQuotient? negative c 1 = some x) ↔ inUnits c < overflowBound := by
  rw [exists_ofQuotient?_iff Nat.one_pos, Nat.cast_one, div_one]

/-- The number one. -/
theorem exists_one : ∃ o, block < o ∧ (scaled o : ℚ) = unitsOfOne := by
  refine ⟨1023 * block, by decide, ?_⟩
  have hscaled : scaled (1023 * block) = Nat.pow 2 1075 := by decide +kernel
  rw [hscaled, cast_unitsOfOne]

/-- What rounds to a number from one on. -/
theorem one_le_of_roundsTo {v : ℚ} (hv : 1 ≤ v) (h : RoundsTo (inUnits v) x.ordinal) :
    1 ≤ x.magnitude ∧ block < x.ordinal := by
  obtain ⟨o, ho, hone⟩ := exists_one
  have hself := RoundsTo.scaled_self o
  have hle : (scaled o : ℚ) ≤ inUnits v := by
    have hle := inUnits_le_inUnits.2 hv
    rwa [inUnits, one_mul, ← hone] at hle
  have hordinal := hself.mono h hle
  refine ⟨?_, by omega⟩
  rw [magnitude, le_div_iff₀ unitsOfOne_pos, one_mul, ← hone, Nat.cast_le]
  exact scaled_strictMono.monotone hordinal

/-- Whole numbers against the midpoint behind the largest number. -/
theorem lt_overflowBound_iff {a : Nat} :
    (a : ℚ) < overflowBound ↔ 2 * a < scaled (finiteOrdinals - 1) + scaled finiteOrdinals := by
  have hsucc : finiteOrdinals - 1 + 1 = finiteOrdinals := by decide
  rw [overflowBound, midpoint, hsucc, lt_div_iff₀ two_pos, mul_comm]
  exact_mod_cast Iff.rfl

theorem ten_pow_lt_overflowBound {e : Nat} (he : e ≤ 308) :
    inUnits (10 ^ e) < overflowBound := by
  have hlast : 2 * (Nat.pow 10 308 * Nat.pow 2 1075)
      < scaled (finiteOrdinals - 1) + scaled finiteOrdinals := by decide +kernel
  have hle : (10 : ℚ) ^ e ≤ (Nat.pow 10 308 : Nat) := by
    generalize 308 = n at he ⊢
    rw [cast_natPow]
    exact pow_le_pow_right₀ (by norm_num) he
  refine (inUnits_le_inUnits.2 hle).trans_lt ?_
  rw [inUnits, ← cast_unitsOfOne, ← Nat.cast_mul]
  exact lt_overflowBound_iff.2 hlast

/-- Every power of ten in reach is a number from one on. -/
theorem exists_powerOfTen? {e : Nat} (he : e ≤ greatestPower) :
    ∃ p, powerOfTen? e = some p ∧ p.negative = false ∧ 1 ≤ p.magnitude ∧ block < p.ordinal ∧
      RoundsTo (inUnits (10 ^ e)) p.ordinal := by
  have hcast : ((Nat.pow 10 e : Nat) : ℚ) = 10 ^ e := cast_natPow 10 e
  obtain ⟨p, hp⟩ : ∃ p, powerOfTen? e = some p := by
    rw [powerOfTen?, exists_ofQuotient?_one_iff, hcast]
    exact ten_pow_lt_overflowBound he
  obtain ⟨hnegative, hrounds⟩ := ofQuotient?_one_eq_some_iff.1 hp
  rw [hcast] at hrounds
  obtain ⟨hone, hblock⟩ := one_le_of_roundsTo (one_le_pow₀ (by norm_num)) hrounds
  exact ⟨p, hp, hnegative, hone, hblock, hrounds⟩

/-! ## Decimals in range -/

/-- There is a quotient by every power of ten in reach. -/
theorem exists_div?_powerOfTen? (x : Binary64) {e : Nat} (he : e ≤ greatestPower) :
    ∃ p y, powerOfTen? e = some p ∧ x.div? p = some y := by
  obtain ⟨p, hp, -, hone, -⟩ := exists_powerOfTen? he
  obtain ⟨y, hy⟩ := exists_div?_of_one_le (x := x) hone
  exact ⟨p, y, hp, hy⟩

theorem exists_divideDown? (x : Binary64) (times : Nat) : ∃ y, x.divideDown? times = some y := by
  induction times generalizing x with
  | zero => exact ⟨x, rfl⟩
  | succ times ih =>
    rw [divideDown?]
    split
    · exact ⟨x, rfl⟩
    · obtain ⟨p, y, hp, hy⟩ := exists_div?_powerOfTen? x (Nat.le_refl greatestPower)
      rw [hp, Option.bind_eq_bind, Option.bind_some, hy]
      exact ih y

/-- Division never leads out of range. -/
theorem exists_scale?_of_neg (x : Binary64) {e : Int} (he : e < 0) : ∃ y, x.scale? e = some y := by
  obtain ⟨y, hy⟩ := x.exists_divideDown? ((e.natAbs - 1) / greatestPower)
  have hpower : (e.natAbs - 1) % greatestPower + 1 ≤ greatestPower :=
    Nat.mod_lt _ (by decide)
  obtain ⟨p, z, hp, hz⟩ := exists_div?_powerOfTen? y hpower
  rw [scale?, if_neg (by omega), hy, hp]
  exact ⟨z, hz⟩

/-- A coefficient with a power of ten that is multiplied by. -/
theorem ofDecimal?_of_nonneg {negative : Bool} {c e : Nat} (he : e ≤ greatestPower) :
    ofDecimal? negative c e = (ofQuotient? negative c 1).bind fun x =>
      (powerOfTen? e).bind fun p => x.mul? p := by
  have he' : (e : Int) ≤ greatestPower := Int.ofNat_le.2 he
  rw [ofDecimal?, Option.bind_eq_bind]
  refine congrArg _ (funext fun x => ?_)
  rw [scale?, if_pos (Int.natCast_nonneg e), if_pos he', Int.toNat_natCast, Option.bind_eq_bind]

/-- A word is in range, so a coefficient of a word with a power of ten that is divided by is. -/
theorem exists_ofDecimal?_of_neg (negative : Bool) {c : Nat} {e : Int} (hc : c < 2 ^ 64)
    (he : e < 0) : ∃ x, ofDecimal? negative c e = some x := by
  have hword : inUnits c < overflowBound := by
    have hle : (c : ℚ) ≤ 10 ^ 20 := by exact_mod_cast (show c ≤ 10 ^ 20 by omega)
    exact (inUnits_le_inUnits.2 hle).trans_lt (ten_pow_lt_overflowBound (by decide))
  obtain ⟨x, hx⟩ := exists_ofQuotient?_one_iff.2 hword
  obtain ⟨y, hy⟩ := x.exists_scale?_of_neg he
  exact ⟨y, by rw [ofDecimal?, hx]; exact hy⟩

/-- A natural number is rounded by at most one part in `2 ^ 53`. -/
theorem magnitude_le_of_roundsTo {c : Nat} (h : RoundsTo (inUnits c) x.ordinal) :
    x.magnitude * 2 ^ 53 ≤ c * (2 ^ 53 + 1) := by
  rcases Nat.eq_zero_or_pos c with rfl | hc
  · rw [Nat.cast_zero, inUnits, zero_mul] at h
    rw [magnitude_eq_zero_iff.2 (h.unique (.zero_of_le (by norm_num))), Nat.cast_zero, zero_mul,
      zero_mul]
  · obtain ⟨-, hblock⟩ := one_le_of_roundsTo (Nat.one_le_cast.2 hc) h
    have hle := h.scaled_le hblock
    rw [← inUnits_magnitude, inUnits, inUnits, mul_right_comm, mul_right_comm (c : ℚ)] at hle
    exact le_of_mul_le_mul_right hle unitsOfOne_pos

/-- Far enough below the midpoint behind the largest number, the roundings of the coefficient
    and of the power of ten do not lead out of range. -/
theorem exists_ofDecimal?_of_nonneg (negative : Bool) {c e : Nat} (he : e ≤ greatestPower)
    (h : inUnits (c * 10 ^ e) * (2 ^ 53 + 1) ^ 2 < overflowBound * (2 ^ 53) ^ 2) :
    ∃ x, ofDecimal? negative c e = some x := by
  have hvalue : (0 : ℚ) ≤ inUnits (c * 10 ^ e) := mul_nonneg (by positivity) unitsOfOne_pos.le
  have hcoefficient : inUnits c < overflowBound := by
    have hle : inUnits c ≤ inUnits (c * 10 ^ e) := by
      refine inUnits_le_inUnits.2 (le_mul_of_one_le_right (Nat.cast_nonneg c) ?_)
      exact one_le_pow₀ (by norm_num)
    linarith
  obtain ⟨x, hx⟩ : ∃ x, ofQuotient? negative c 1 = some x :=
    exists_ofQuotient?_one_iff.2 hcoefficient
  obtain ⟨p, hp, -, -, -, hpower⟩ := exists_powerOfTen? he
  have hproduct : inUnits (x.magnitude * p.magnitude) < overflowBound := by
    have hxle := magnitude_le_of_roundsTo (ofQuotient?_one_eq_some_iff.1 hx).2
    have hple : p.magnitude * 2 ^ 53 ≤ 10 ^ e * (2 ^ 53 + 1) := by
      have hle := magnitude_le_of_roundsTo (c := 10 ^ e) (x := p) (by exact_mod_cast hpower)
      exact_mod_cast hle
    refine lt_of_mul_lt_mul_right (lt_of_le_of_lt ?_ h) (by positivity)
    calc inUnits (x.magnitude * p.magnitude) * (2 ^ 53) ^ 2
        = x.magnitude * 2 ^ 53 * (p.magnitude * 2 ^ 53) * unitsOfOne := by
          rw [inUnits]
          ring
      _ ≤ c * (2 ^ 53 + 1) * (10 ^ e * (2 ^ 53 + 1)) * unitsOfOne := by
          refine mul_le_mul_of_nonneg_right ?_ unitsOfOne_pos.le
          exact mul_le_mul hxle hple (mul_nonneg p.magnitude_nonneg (by positivity))
            (by positivity)
      _ = inUnits (c * 10 ^ e) * (2 ^ 53 + 1) ^ 2 := by
          rw [inUnits]
          ring
  obtain ⟨z, hz⟩ := exists_mul?_iff.2 hproduct
  refine ⟨z, ?_⟩
  rw [ofDecimal?_of_nonneg he, hx, hp]
  exact hz

/-! ## Exact coefficients and powers -/

/-- Every significand of 53 bits times a power of two is a magnitude. -/
theorem exists_scaled_eq {m : Nat} (hm : m < 2 * block) (k : Nat) :
    ∃ o, scaled o = m * 2 ^ (k + 1) := by
  induction k generalizing m with
  | zero => exact ⟨_, scaled_block 0 hm.le (.inl rfl)⟩
  | succ k ih =>
    rcases Nat.lt_or_ge m block with hlt | hge
    · -- A significand that is not long enough is the half of one at the power below.
      obtain ⟨o, ho⟩ := ih (m := 2 * m) (by omega)
      exact ⟨o, by rw [ho]; ring⟩
    · exact ⟨_, scaled_block (k + 1) hm.le (.inr hge)⟩

/-- A natural number of so many bits is not changed by rounding. -/
theorem magnitude_eq_of_roundsTo {m k : Nat} (hm : m < 2 * block)
    (h : RoundsTo (inUnits (m * 2 ^ k)) x.ordinal) : x.magnitude = m * 2 ^ k := by
  obtain ⟨o, ho⟩ := exists_scaled_eq hm (1074 + k)
  have hunits : inUnits (m * 2 ^ k) = scaled o := by
    have hexponent : 1074 + k + 1 = k + 1075 := by omega
    rw [ho, hexponent, Nat.cast_mul, Nat.cast_pow, Nat.cast_ofNat, pow_add, ← mul_assoc, inUnits,
      unitsOfOne]
  rw [hunits] at h
  rw [magnitude, h.unique (RoundsTo.scaled_self o), ← hunits, inUnits,
    mul_div_cancel_right₀ _ unitsOfOne_pos.ne']

/-- Coefficients of 53 bits are numbers. -/
theorem exists_exact_coefficient (negative : Bool) {c : Nat} (hc : c < 2 * block) :
    ∃ x, ofQuotient? negative c 1 = some x ∧ x.negative = negative ∧ x.magnitude = c := by
  have hword : inUnits c < overflowBound := by
    have hblock : 2 * block ≤ 10 ^ 16 := by decide
    have hle : (c : ℚ) ≤ 10 ^ 16 := by exact_mod_cast hc.le.trans hblock
    exact (inUnits_le_inUnits.2 hle).trans_lt (ten_pow_lt_overflowBound (by decide))
  obtain ⟨x, hx⟩ : ∃ x, ofQuotient? negative c 1 = some x := exists_ofQuotient?_one_iff.2 hword
  obtain ⟨hnegative, hrounds⟩ := ofQuotient?_one_eq_some_iff.1 hx
  have hexact := magnitude_eq_of_roundsTo (k := 0) hc (by rwa [pow_zero, mul_one])
  exact ⟨x, hx, hnegative, by rwa [pow_zero, mul_one] at hexact⟩

/-- Powers of ten are numbers up to the twenty-second. -/
theorem exists_exact_power {e : Nat} (he : e ≤ 22) :
    ∃ p, powerOfTen? e = some p ∧ p.negative = false ∧ 0 < p.ordinal ∧ p.magnitude = 10 ^ e := by
  have hpower : e ≤ greatestPower := he.trans (by decide)
  obtain ⟨p, hp, hnegative, -, hblock, hrounds⟩ := exists_powerOfTen? hpower
  have hfive : 5 ^ e < 2 * block :=
    (Nat.pow_le_pow_right (by decide) he).trans_lt (by decide)
  have hsplit : (10 : ℚ) ^ e = (5 ^ e : Nat) * 2 ^ e := by
    rw [Nat.cast_pow, Nat.cast_ofNat, ← mul_pow]
    norm_num
  rw [hsplit] at hrounds
  exact ⟨p, hp, hnegative, by omega, by rw [hsplit]; exact magnitude_eq_of_roundsTo hfive hrounds⟩

/-- Where the coefficient and the power of ten are numbers, the decimal comes to the number
    that it rounds to. -/
theorem ofDecimal?_eq_some_iff_of_exact {negative : Bool} {c : Nat} {e : Int}
    (hc : c < 2 * block) (he : e.natAbs ≤ 22) :
    ofDecimal? negative c e = some z ↔
      z.negative = negative ∧ RoundsTo (inUnits (c * 10 ^ e)) z.ordinal := by
  obtain ⟨x, hx, hnegative, hcoefficient⟩ := exists_exact_coefficient negative hc
  obtain ⟨p, hp, hpositive, hpos, hpower⟩ := exists_exact_power he
  have hsign : (x.negative != p.negative) = negative := by
    rw [hnegative, hpositive, Bool.bne_false]
  rcases lt_or_ge e 0 with hneg | hnonneg
  · have hvalue : x.magnitude / p.magnitude = c * 10 ^ e := by
      rw [hcoefficient, hpower, div_eq_mul_inv, ← zpow_natCast, ← zpow_neg]
      congr 2
      omega
    have hdivisions : (e.natAbs - 1) / greatestPower = 0 :=
      Nat.div_eq_of_lt (lt_of_lt_of_le (by omega : e.natAbs - 1 < 22) (by decide))
    have hlast : (e.natAbs - 1) % greatestPower + 1 = e.natAbs := by
      rw [Nat.mod_eq_of_lt (lt_of_lt_of_le (by omega : e.natAbs - 1 < 22) (by decide))]
      omega
    have hscale : x.scale? e = x.div? p := by
      rw [scale?, if_neg (by omega), hdivisions, divideDown?, hlast, hp]
      rfl
    rw [ofDecimal?, hx, Option.bind_eq_bind, Option.bind_some, hscale, div?_eq_some_iff hpos,
      hvalue, hsign]
  · obtain ⟨n, rfl⟩ := Int.eq_ofNat_of_zero_le hnonneg
    rw [Int.natAbs_natCast] at he hp hpower
    rw [ofDecimal?_of_nonneg (he.trans (by decide)), hx, hp, Option.bind_some, Option.bind_some,
      mul?_eq_some_iff, hsign, hcoefficient, hpower, zpow_natCast]

-- Twenty-three zeros are one too many: the power is rounded, and the product is not the number
-- nearest to the decimal.
example : (ofDecimal? false 3 23).map (fun x => shortest x.ordinal)
    = some ⟨29999999999999997, 7⟩ := by decide +kernel

/-! ## The shortest decimal -/

/-- Below the two largest numbers there is room for the roundings of a coefficient and of a
    power of ten. -/
theorem midpoint_lt_overflowBound {o : Nat} (ho : o ≤ finiteOrdinals - 3) :
    midpoint o * (2 ^ 53 + 1) ^ 2 < overflowBound * (2 ^ 53) ^ 2 := by
  have hroom : (scaled (finiteOrdinals - 3) + scaled (finiteOrdinals - 2)) * (2 ^ 53 + 1) ^ 2
      < (scaled (finiteOrdinals - 1) + scaled finiteOrdinals) * (2 ^ 53) ^ 2 := by decide +kernel
  have hnext : finiteOrdinals - 3 + 1 = finiteOrdinals - 2 := by decide
  have hlast : finiteOrdinals - 1 + 1 = finiteOrdinals := by decide
  have hle : midpoint o ≤ midpoint (finiteOrdinals - 3) := midpoint_strictMono.monotone ho
  refine (mul_le_mul_of_nonneg_right hle (by positivity)).trans_lt ?_
  rw [overflowBound, midpoint, midpoint, hnext, hlast, div_mul_eq_mul_div, div_mul_eq_mul_div]
  refine div_lt_div_of_pos_right ?_ two_pos
  exact_mod_cast hroom

/-- A shortest decimal has no greater power of ten than numbers do. -/
theorem exponent_shortest_le {o : Nat} (ho : o < finiteOrdinals) :
    (shortest o).exponent ≤ greatestPower := by
  rcases Nat.eq_zero_or_pos (shortest o).coefficient with hzero | hpos
  · rw [exponent_shortest_eq_zero ho hzero]
    decide
  · by_contra hgt
    have hvalue : (10 : ℚ) ^ (shortest o).exponent ≤ (shortest o).toRat :=
      le_mul_of_one_le_left (by positivity) (Nat.one_le_cast.2 hpos)
    have hpower : 309 ≤ (shortest o).exponent := Int.not_le.1 hgt
    have hbelow := (shortest_roundsTo ho).below.trans_lt (midpoint_lt_scaled_succ o)
    have hlast : (scaled (o + 1) : ℚ) ≤ scaled finiteOrdinals :=
      Nat.cast_le.2 (scaled_strictMono.monotone ho)
    have habove := (scaled_finiteOrdinals_le hpower).trans (inUnits_le_inUnits.2 hvalue)
    exact absurd (hbelow.trans_le hlast) (not_lt.2 habove)

/-- A shortest decimal is read as a number, though maybe not as the one that it was made for. -/
theorem exists_ofDecimal?_shortest (negative : Bool) {o : Nat} (ho : o < finiteOrdinals) :
    ∃ x, ofDecimal? negative (shortest o).coefficient (shortest o).exponent = some x := by
  rcases lt_or_ge (shortest o).exponent 0 with hneg | hnonneg
  · have hcoefficient := (shortest_bounds ho).1
    exact exists_ofDecimal?_of_neg negative (hcoefficient.trans_lt (by decide)) hneg
  · rcases Nat.lt_or_ge (finiteOrdinals - 3) o with hhigh | hlow
    · -- The two largest numbers are tried.
      have hlargest : ∀ b, ∀ p ∈ [finiteOrdinals - 1, finiteOrdinals - 2],
          (ofDecimal? b (shortest p).coefficient (shortest p).exponent).isSome = true := by
        decide +kernel
      have hmem : o ∈ [finiteOrdinals - 1, finiteOrdinals - 2] := by
        rw [List.mem_pair]
        omega
      exact Option.isSome_iff_exists.1 (hlargest negative o hmem)
    · obtain ⟨e, he⟩ := Int.eq_ofNat_of_zero_le hnonneg
      have hpower := exponent_shortest_le ho
      have hvalue : (shortest o).toRat = (shortest o).coefficient * 10 ^ e := by
        rw [Decimal.toRat, he, zpow_natCast]
      have hbelow := (shortest_roundsTo ho).below
      rw [hvalue] at hbelow
      rw [he] at hpower ⊢
      refine exists_ofDecimal?_of_nonneg negative (Int.ofNat_le.1 hpower) ?_
      exact (mul_le_mul_of_nonneg_right hbelow (by positivity)).trans_lt
        (midpoint_lt_overflowBound hlow)

end Binary64

end Stylebook.Number
