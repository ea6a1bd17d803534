/-
  Stylebook.Proofs.Number.Shortest

  The shortest decimal of a number rounds to the number (`shortest_roundsTo`). The exact
  comparisons of the search are comparisons of rationals (`Decimal.compareScaled_spec`), so the
  decimals that it accepts are those that round to the number (`Decimal.roundsTo_iff`). If any
  decimal with an exponent does, then so does one of the two around the number
  (`exists_neighbour?`), and with seventeen digits one of these two always does
  (`exists_neighbour?_of_fine`). So the shortest decimal has no more digits
  (`shortest_bounds`).

  The search prefers greater exponents, and decimals of fifteen digits lie further apart than a
  number's interval is wide. So a decimal of at most fifteen digits comes back with its value,
  unless it lies below the least magnitude that has all bits of precision
  (`shortest_toRat_eq`).
-/

import Mathlib.Data.Nat.Cast.Field
import Stylebook.Proofs.Number.Rounding

namespace Stylebook.Number

/-! ## Decimals -/

/-- The value of a decimal. -/
def Decimal.toRat (d : Decimal) : ℚ := d.coefficient * 10 ^ d.exponent

theorem Decimal.inUnits_toRat (c : Nat) (e : Int) :
    inUnits (Decimal.mk c e).toRat = c * inUnits (10 ^ e) := by
  rw [toRat, inUnits, inUnits, mul_assoc]

/-- The digits of a positive number are as many as its leading power of ten needs. -/
theorem pow_length_toDigits {n : Nat} (hn : 0 < n) :
    10 ^ ((Nat.toDigits 10 n).length - 1) ≤ n ∧ n < 10 ^ (Nat.toDigits 10 n).length := by
  induction n using Nat.strongRecOn with
  | ind n ih =>
    rcases Nat.lt_or_ge n 10 with hlt | hge
    · rw [Nat.toDigits_of_lt_base hlt]
      exact ⟨hn, hlt⟩
    · obtain ⟨hlow, hhigh⟩ := ih (n / 10) (by omega) (by omega)
      have hlength : (Nat.toDigits 10 n).length = (Nat.toDigits 10 (n / 10)).length + 1 := by
        rw [Nat.toDigits_of_base_le (by decide) hge, List.length_append, List.length_singleton]
      have hpos : 0 < (Nat.toDigits 10 (n / 10)).length := by
        rcases Nat.eq_zero_or_pos (Nat.toDigits 10 (n / 10)).length with hzero | hpos
        · rw [hzero] at hhigh
          omega
        · exact hpos
      obtain ⟨l, hl⟩ := Nat.exists_eq_succ_of_ne_zero hpos.ne'
      rw [hl] at hlow hhigh
      rw [hlength, hl]
      rw [Nat.succ_eq_add_one, Nat.add_sub_cancel] at hlow ⊢
      rw [Nat.pow_succ 10 l, Nat.pow_succ 10 (l + 1)]
      exact ⟨by omega, by omega⟩

/-! ## Exact comparisons -/

/-- The comparison of a decimal with a magnitude is one of natural numbers, which stand for
    the two on a common scale. -/
theorem Decimal.exists_compareScaled_eq (d : Decimal) (m : Nat) :
    ∃ (a b : Nat) (s : ℚ), d.compareScaled m = compare a b ∧ 0 < s ∧
      (a : ℚ) = inUnits d.toRat * s ∧ (b : ℚ) = m * s := by
  rw [compareScaled]
  split
  · next he =>
    refine ⟨_, _, 1, rfl, one_pos, ?_, (mul_one _).symm⟩
    rw [Nat.cast_mul, Nat.cast_mul, cast_pow_toNat 10 he, cast_unitsOfOne, mul_one]
    rfl
  · next he =>
    have hpow : (0 : ℚ) < 10 ^ d.exponent := by positivity
    refine ⟨_, _, (10 ^ d.exponent)⁻¹, rfl, inv_pos.2 hpow, ?_, ?_⟩
    · rw [Nat.cast_mul, cast_unitsOfOne, inUnits, toRat]
      field_simp
    · rw [Nat.cast_mul, cast_pow_neg_toNat 10 he]
      rfl

theorem Decimal.compareScaled_spec (d : Decimal) (m : Nat) :
    (d.compareScaled m = .lt ↔ inUnits d.toRat < m) ∧
      (d.compareScaled m = .gt ↔ (m : ℚ) < inUnits d.toRat) := by
  obtain ⟨a, b, s, hcompare, hs, ha, hb⟩ := d.exists_compareScaled_eq m
  have hlt : inUnits d.toRat < m ↔ a < b := by
    rw [← mul_lt_mul_iff_left₀ hs, ← ha, ← hb, Nat.cast_lt]
  have hgt : (m : ℚ) < inUnits d.toRat ↔ b < a := by
    rw [← mul_lt_mul_iff_left₀ hs, ← ha, ← hb, Nat.cast_lt]
  rw [hcompare, hlt, hgt]
  exact ⟨Nat.compare_eq_lt, Nat.compare_eq_gt⟩

/-- Half of the sum of two neighbours is exact. -/
theorem cast_half_eq_midpoint (o : Nat) :
    (((scaled o + scaled (o + 1)) / 2 : Nat) : ℚ) = midpoint o := by
  have hdvd : 2 ∣ scaled o + scaled (o + 1) :=
    Nat.dvd_add (two_dvd_scaled o) (two_dvd_scaled (o + 1))
  rw [Nat.cast_div_charZero hdvd, Nat.cast_add, midpoint, Nat.cast_ofNat]

/-- The decimals accepted for a magnitude are those that round to it. -/
theorem Decimal.roundsTo_iff {d : Decimal} {o : Nat} (ho : 0 < o) :
    d.roundsTo o = true ↔ RoundsTo (inUnits d.toRat) o := by
  obtain ⟨p, rfl⟩ := Nat.exists_eq_succ_of_ne_zero ho.ne'
  obtain ⟨hlowLt, hlowGt⟩ := d.compareScaled_spec ((scaled p + scaled (p + 1)) / 2)
  obtain ⟨hhighLt, hhighGt⟩ := d.compareScaled_spec ((scaled (p + 1) + scaled (p + 1 + 1)) / 2)
  rw [cast_half_eq_midpoint] at hlowLt hlowGt hhighLt hhighGt
  simp only [roundsTo, Nat.succ_eq_add_one, Nat.add_sub_cancel]
  split
  · next heven =>
    -- An even ordinal takes its midpoints.
    rw [Bool.and_eq_true, bne_iff_ne, bne_iff_ne, Ne, Ne, hlowLt, hhighGt, not_lt, not_lt]
    constructor
    · rintro ⟨hlow, hhigh⟩
      refine ⟨hhigh, fun _ => heven, ?_, fun _ _ _ => heven⟩
      rintro q hq
      cases hq
      exact hlow
    · exact fun h => ⟨h.above p rfl, h.below⟩
  · next hodd =>
    rw [Bool.and_eq_true, beq_iff_eq, beq_iff_eq, hlowGt, hhighLt]
    constructor
    · rintro ⟨hlow, hhigh⟩
      refine .of_lt hhigh ?_
      rintro q hq
      cases hq
      exact hlow
    · exact fun h => ⟨lt_of_le_of_ne (h.above p rfl) fun heq => hodd (h.above_even p rfl heq),
        lt_of_le_of_ne h.below fun heq => hodd (h.below_even heq)⟩

/-! ## The two decimals around a magnitude -/

theorem floorAt_spec (m : Nat) (e : Int) :
    inUnits (Decimal.mk (floorAt m e) e).toRat ≤ m ∧
      (m : ℚ) < inUnits (Decimal.mk (floorAt m e + 1) e).toRat := by
  -- A quotient rounded down, over a common denominator.
  have hquotient {a b : Nat} (hb : 0 < b) {s : ℚ} (hs : 0 < s) (ha : (a : ℚ) = m * s)
      (hb' : (b : ℚ) = inUnits (10 ^ e) * s) :
      inUnits (Decimal.mk (a / b) e).toRat ≤ m ∧
        (m : ℚ) < inUnits (Decimal.mk (a / b + 1) e).toRat := by
    have hvalue (c : Nat) : inUnits (Decimal.mk c e).toRat * s = (c * b : Nat) := by
      rw [Nat.cast_mul, hb', Decimal.inUnits_toRat, mul_assoc]
    refine ⟨le_of_mul_le_mul_right ?_ hs, lt_of_mul_lt_mul_right ?_ hs.le⟩
    · rw [hvalue, ← ha, Nat.cast_le]
      exact Nat.div_mul_le_self a b
    · rw [hvalue, ← ha, Nat.cast_lt, Nat.add_mul, Nat.one_mul]
      exact Nat.lt_div_mul_add hb
  have hunits : 0 < Nat.pow 2 1075 := by
    generalize 1075 = n
    exact Nat.two_pow_pos n
  rw [floorAt]
  split
  · next he =>
    refine hquotient (Nat.mul_pos (Nat.pow_pos (by decide)) hunits) one_pos (mul_one _).symm ?_
    rw [Nat.cast_mul, cast_pow_toNat 10 he, cast_unitsOfOne, mul_one]
    rfl
  · next he =>
    have hpow : (0 : ℚ) < 10 ^ e := by positivity
    refine hquotient hunits (inv_pos.2 hpow) ?_ ?_
    · rw [Nat.cast_mul, cast_pow_neg_toNat 10 he]
      rfl
    · rw [cast_unitsOfOne, inUnits, mul_right_comm, mul_inv_cancel₀ hpow.ne', one_mul]

theorem Decimal.toRat_le_toRat {c c' : Nat} {e : Int} (h : c ≤ c') :
    (Decimal.mk c e).toRat ≤ (Decimal.mk c' e).toRat :=
  mul_le_mul_of_nonneg_right (Nat.cast_le.2 h) (by positivity)

/-- A decimal that is found around a magnitude rounds to it. -/
theorem roundsTo_of_neighbour? {o : Nat} {e : Int} {d : Decimal} (ho : 0 < o)
    (h : neighbour? o e = some d) : RoundsTo (inUnits d.toRat) o ∧ d.exponent = e ∧
      d.coefficient ≤ floorAt (scaled o) e + 1 := by
  rw [neighbour?] at h
  rw [← Decimal.roundsTo_iff ho]
  dsimp only at h
  split at h
  · next hbelow habove =>
    split at h
    · cases h
      exact ⟨hbelow, rfl, Nat.le_succ _⟩
    · cases h
      exact ⟨habove, rfl, Nat.le_refl _⟩
    · split at h
      · cases h
        exact ⟨hbelow, rfl, Nat.le_succ _⟩
      · cases h
        exact ⟨habove, rfl, Nat.le_refl _⟩
  · next hbelow _ =>
    cases h
    exact ⟨hbelow, rfl, Nat.le_succ _⟩
  · next _ habove =>
    cases h
    exact ⟨habove, rfl, Nat.le_refl _⟩
  · cases h

/-- If one of the two decimals around a magnitude rounds to it, one is found. -/
theorem exists_neighbour?_of_around {o : Nat} {e : Int} (ho : 0 < o)
    (h : RoundsTo (inUnits (Decimal.mk (floorAt (scaled o) e) e).toRat) o ∨
      RoundsTo (inUnits (Decimal.mk (floorAt (scaled o) e + 1) e).toRat) o) :
    ∃ d, neighbour? o e = some d := by
  rw [← Decimal.roundsTo_iff ho, ← Decimal.roundsTo_iff ho] at h
  rw [neighbour?]
  dsimp only
  split
  · split
    · exact ⟨_, rfl⟩
    · exact ⟨_, rfl⟩
    · exact ⟨_, rfl⟩
  · exact ⟨_, rfl⟩
  · exact ⟨_, rfl⟩
  · next hbelow habove =>
    rw [hbelow, habove] at h
    exact absurd h (by decide)

/-- If any decimal with this exponent rounds to a magnitude, then one around it does. -/
theorem exists_neighbour? {o c : Nat} {e : Int} (ho : 0 < o)
    (h : RoundsTo (inUnits (Decimal.mk c e).toRat) o) : ∃ d, neighbour? o e = some d := by
  obtain ⟨hlow, hhigh⟩ := floorAt_spec (scaled o) e
  refine exists_neighbour?_of_around ho ?_
  rcases Nat.lt_or_ge (floorAt (scaled o) e) c with hlt | hge
  · exact .inr ((RoundsTo.scaled_self o).between h hhigh.le
      (inUnits_le_inUnits.2 (Decimal.toRat_le_toRat hlt)))
  · exact .inl (h.between (RoundsTo.scaled_self o)
      (inUnits_le_inUnits.2 (Decimal.toRat_le_toRat hge)) hlow)

/-- Decimals whose distance is small against a magnitude: one of the two around it rounds
    to it. -/
theorem exists_neighbour?_of_fine {o : Nat} {e : Int} (ho : 0 < o)
    (hfine : inUnits (10 ^ e) * 10 ^ 16 ≤ scaled o) : ∃ d, neighbour? o e = some d := by
  obtain ⟨p, rfl⟩ := Nat.exists_eq_succ_of_ne_zero ho.ne'
  obtain ⟨hlow, hhigh⟩ := floorAt_spec (scaled (p + 1)) e
  have hpos : (0 : ℚ) < scaled (p + 1) := by
    have hlt := scaled_lt_scaled_succ p
    exact Nat.cast_pos.2 (by omega)
  -- Half of their distance is less than half a step, upwards or downwards.
  have hgap : inUnits (Decimal.mk (floorAt (scaled (p + 1)) e + 1) e).toRat
      = inUnits (Decimal.mk (floorAt (scaled (p + 1)) e) e).toRat + inUnits (10 ^ e) := by
    rw [Decimal.inUnits_toRat, Decimal.inUnits_toRat, Nat.cast_add, Nat.cast_one]
    ring
  have habove : (scaled (p + 1) : ℚ) ≤ 2 ^ 53 * (scaled (p + 1 + 1) - scaled (p + 1)) := by
    have hle := scaled_le_step_above (p + 1)
    rw [← Nat.cast_sub (scaled_lt_scaled_succ (p + 1)).le]
    exact_mod_cast hle
  have hbelow : (scaled (p + 1) : ℚ) ≤ 2 ^ 53 * (scaled (p + 1) - scaled p) := by
    have hle := scaled_le_step_below p
    rw [← Nat.cast_sub (scaled_lt_scaled_succ p).le]
    exact_mod_cast hle
  refine exists_neighbour?_of_around ho ?_
  rcases le_total (scaled (p + 1) - inUnits (Decimal.mk (floorAt (scaled (p + 1)) e) e).toRat)
      (inUnits (10 ^ e) / 2) with hnear | hfar
  · refine .inl (.of_lt (hlow.trans_lt (scaled_lt_midpoint _)) ?_)
    rintro q hq
    cases hq
    rw [midpoint]
    linarith
  · refine .inr (.of_lt ?_ ?_)
    · rw [midpoint]
      linarith
    · rintro q hq
      cases hq
      exact (midpoint_lt_scaled_succ p).trans hhigh

/-! ## The leading power of ten -/

/-- The search downwards for the leading power of ten: nothing above it is passed over, and the
    steps suffice. -/
theorem leadingExponent_spec {m : Nat} {start : Int} {fuel : Nat}
    (hstart : (m : ℚ) < inUnits (10 ^ (start + 1)))
    (hfuel : inUnits (10 ^ (start - fuel)) ≤ m) :
    inUnits (10 ^ leadingExponent m start fuel) ≤ m ∧
      (m : ℚ) < inUnits (10 ^ (leadingExponent m start fuel + 1)) := by
  induction fuel generalizing start with
  | zero =>
    rw [Nat.cast_zero, Int.sub_zero] at hfuel
    exact ⟨hfuel, hstart⟩
  | succ fuel ih =>
    have hvalue : (Decimal.mk 1 start).toRat = 10 ^ start := by
      rw [Decimal.toRat, Nat.cast_one, one_mul]
    rw [leadingExponent]
    split
    · next hle =>
      rw [bne_iff_ne, Ne, ((Decimal.mk 1 start).compareScaled_spec m).2, not_lt, hvalue] at hle
      exact ⟨hle, hstart⟩
    · next hgt =>
      rw [bne_iff_ne, Ne, not_not, ((Decimal.mk 1 start).compareScaled_spec m).2, hvalue] at hgt
      refine ih ?_ ?_
      · rwa [Int.sub_add_cancel]
      · rw [Nat.cast_add, Nat.cast_one] at hfuel
        rwa [Int.sub_sub, Int.add_comm 1]

theorem leadingExponent_bounds (m : Nat) (start : Int) (fuel : Nat) :
    start - fuel ≤ leadingExponent m start fuel ∧ leadingExponent m start fuel ≤ start := by
  induction fuel generalizing start with
  | zero =>
    rw [leadingExponent]
    omega
  | succ fuel ih =>
    rw [leadingExponent]
    split
    · exact ⟨by omega, Int.le_refl start⟩
    · have hbounds := ih (start - 1)
      omega

/-- Every positive magnitude has its leading power of ten within the steps of the search. -/
theorem leadingExponent_scaled {o : Nat} (ho : 0 < o) (hlt : o < finiteOrdinals) :
    inUnits (10 ^ leadingExponent (scaled o) 308 640) ≤ scaled o ∧
      (scaled o : ℚ) < inUnits (10 ^ (leadingExponent (scaled o) 308 640 + 1)) := by
  refine leadingExponent_spec ?_ ?_
  · exact (Nat.cast_lt.2 (scaled_strictMono hlt)).trans_le
      (scaled_finiteOrdinals_le (by decide))
  · have hpow : Nat.pow 2 1075 ≤ Nat.pow 10 332 := by decide +kernel
    have hone : 1 ≤ scaled o := Nat.one_le_of_lt (scaled_strictMono ho)
    exact (inUnits_ten_zpow_le_one rfl hpow).trans (Nat.one_le_cast.2 hone)

/-! ## The shortest decimal -/

/-- Zeros at the end of the coefficient move into the exponent. -/
theorem Decimal.toRat_stripZeros (d : Decimal) (fuel : Nat) :
    (d.stripZeros fuel).toRat = d.toRat := by
  induction fuel generalizing d with
  | zero => rfl
  | succ fuel ih =>
    rw [stripZeros]
    split
    · next hzero =>
      have hcoefficient : (d.coefficient : ℚ) = (d.coefficient / 10 : Nat) * 10 := by
        rw [Nat.cast_div_charZero (Nat.dvd_of_mod_eq_zero hzero), Nat.cast_ofNat]
        ring
      rw [ih, toRat, toRat, hcoefficient, zpow_add_one₀ (by norm_num)]
      ring
    · rfl

theorem Decimal.stripZeros_bounds (d : Decimal) (fuel : Nat) :
    (d.stripZeros fuel).coefficient ≤ d.coefficient ∧
      d.exponent ≤ (d.stripZeros fuel).exponent ∧
      (d.stripZeros fuel).exponent ≤ d.exponent + fuel := by
  induction fuel generalizing d with
  | zero => exact ⟨Nat.le_refl _, Int.le_refl _, by rw [stripZeros]; omega⟩
  | succ fuel ih =>
    rw [stripZeros]
    split
    · obtain ⟨hcoefficient, hlow, hhigh⟩ := ih ⟨d.coefficient / 10, d.exponent + 1⟩
      dsimp only at hcoefficient hlow hhigh
      omega
    · exact ⟨Nat.le_refl _, Int.le_refl _, by omega⟩

/-- What the search finds: a decimal around the magnitude with the greatest exponent for which
    there is one. -/
theorem exists_shortest_eq {o : Nat} (ho : 0 < o) (hlt : o < finiteOrdinals) :
    ∃ (d : Decimal) (n : Nat), n < 17 ∧ shortest o = d.stripZeros 17 ∧
      neighbour? o (leadingExponent (scaled o) 308 640 - n) = some d ∧
      ∀ k < n, neighbour? o (leadingExponent (scaled o) 308 640 - k) = none := by
  obtain ⟨lead, hlead⟩ : ∃ lead, lead = leadingExponent (scaled o) 308 640 := ⟨_, rfl⟩
  have hlow := (leadingExponent_scaled ho hlt).1
  rw [shortest, if_neg ho.ne']
  simp only [← hlead] at hlow ⊢
  cases hfound : (List.range 17).findSome? fun (n : Nat) => neighbour? o (lead - n) with
  | none =>
    -- Seventeen digits are fine enough.
    have hfine : inUnits (10 ^ (lead - (16 : Nat))) * 10 ^ 16 ≤ scaled o := by
      have hsplit : inUnits (10 ^ (lead - (16 : Nat))) * 10 ^ 16 = inUnits (10 ^ lead) := by
        rw [inUnits, inUnits, zpow_sub₀ (by norm_num), zpow_natCast]
        field_simp
      rwa [hsplit]
    obtain ⟨d, hd⟩ := exists_neighbour?_of_fine ho hfine
    have hnone := List.findSome?_eq_none_iff.1 hfound 16 (List.mem_range.2 (by decide))
    rw [hd] at hnone
    cases hnone
  | some d =>
    obtain ⟨before, n, after, hrange, hd, hbefore⟩ := List.findSome?_eq_some_iff.1 hfound
    rw [List.range_eq_range', List.range'_eq_append_iff] at hrange
    obtain ⟨k, hk, rfl, hafter⟩ := hrange
    obtain ⟨rfl, hlength, -⟩ := List.range'_eq_cons_iff.1 hafter.symm
    refine ⟨d, _, by omega, rfl, hd, fun j hj => hbefore j ?_⟩
    exact List.mem_range'_1.2 (by omega)

/-- The shortest decimal of a magnitude rounds to it. -/
theorem shortest_roundsTo {o : Nat} (hlt : o < finiteOrdinals) :
    RoundsTo (inUnits (shortest o).toRat) o := by
  rcases Nat.eq_zero_or_pos o with rfl | ho
  · have hzero : (shortest 0).toRat = 0 := by
      rw [shortest, if_pos rfl, Decimal.toRat, Nat.cast_zero, zero_mul]
    rw [hzero, inUnits, zero_mul]
    exact .zero_of_le (by norm_num)
  · obtain ⟨d, n, -, hshortest, hd, -⟩ := exists_shortest_eq ho hlt
    rw [hshortest, Decimal.toRat_stripZeros]
    exact (roundsTo_of_neighbour? ho hd).1

/-- The shortest decimal has no digit but zero only for zero. -/
theorem exponent_shortest_eq_zero {o : Nat} (ho : o < finiteOrdinals)
    (h : (shortest o).coefficient = 0) : (shortest o).exponent = 0 := by
  rcases Nat.eq_zero_or_pos o with rfl | hpos
  · rw [shortest, if_pos rfl]
  · have hunits := (shortest_roundsTo ho).pos hpos
    rw [Decimal.toRat, h, Nat.cast_zero, zero_mul, inUnits, zero_mul] at hunits
    exact absurd hunits (lt_irrefl _)

/-- The shortest decimal has no more than seventeen digits, and its exponent stays near those
    of the powers of ten. -/
theorem shortest_bounds {o : Nat} (hlt : o < finiteOrdinals) :
    (shortest o).coefficient ≤ 10 ^ 17 ∧ -348 ≤ (shortest o).exponent ∧
      (shortest o).exponent ≤ 325 := by
  rcases Nat.eq_zero_or_pos o with rfl | ho
  · rw [shortest, if_pos rfl]
    decide
  · obtain ⟨d, n, hn, hshortest, hd, -⟩ := exists_shortest_eq ho hlt
    obtain ⟨lead, hlead⟩ : ∃ lead, lead = leadingExponent (scaled o) 308 640 := ⟨_, rfl⟩
    have hleadBounds := leadingExponent_bounds (scaled o) 308 640
    have hleadHigh := (leadingExponent_scaled ho hlt).2
    obtain ⟨-, hexponent, hcoefficient⟩ := roundsTo_of_neighbour? ho hd
    obtain ⟨hstripped, hlow, hhigh⟩ := d.stripZeros_bounds 17
    rw [← hlead] at hleadBounds hleadHigh hexponent hcoefficient
    -- Below the leading power of ten, each exponent down leaves one digit more.
    have hfloor : floorAt (scaled o) (lead - n) < 10 ^ (n + 1) := by
      have hvalue := (floorAt_spec (scaled o) (lead - n)).1.trans_lt hleadHigh
      have hsplit : inUnits (10 ^ (lead + 1))
          = ((10 ^ (n + 1) : Nat) : ℚ) * inUnits (10 ^ (lead - (n : Int))) := by
        rw [inUnits, inUnits, ← mul_assoc, Nat.cast_pow, ← zpow_natCast, Nat.cast_ofNat,
          ← zpow_add₀ (by norm_num)]
        congr 2
        omega
      rw [Decimal.inUnits_toRat, hsplit] at hvalue
      exact_mod_cast lt_of_mul_lt_mul_right hvalue (mul_nonneg (by positivity) unitsOfOne_pos.le)
    have hpow : 10 ^ (n + 1) ≤ 10 ^ 17 := Nat.pow_le_pow_right (by decide) (by omega)
    rw [hshortest]
    exact ⟨by omega, by omega, by omega⟩

/-! ## Decimals of fifteen digits -/

/-- The step below a magnitude, from the start of the second block on. -/
theorem step_below_le_scaled {p : Nat} (h : block ≤ p + 1) :
    2 ^ 52 * (scaled (p + 1) - scaled p) ≤ scaled (p + 1) := by
  rcases Nat.lt_or_ge p block with hlt | hge
  · obtain rfl : p = block - 1 := by omega
    decide +kernel
  · exact (step_above_le_scaled hge).trans (scaled_lt_scaled_succ p).le

/-- Rationals that round to one magnitude lie close together. -/
theorem RoundsTo.sub_le {u v : ℚ} {o : Nat} (ho : block ≤ o) (hu : RoundsTo u o)
    (hv : RoundsTo v o) : (v - u) * 2 ^ 52 ≤ scaled o := by
  have hblock : 0 < block := by decide
  obtain ⟨p, rfl⟩ := Nat.exists_eq_succ_of_ne_zero (hblock.trans_le ho).ne'
  have habove : 2 ^ 52 * ((scaled (p + 1 + 1) : ℚ) - scaled (p + 1)) ≤ scaled (p + 1) := by
    have hle := step_above_le_scaled ho
    rw [← Nat.cast_sub (scaled_lt_scaled_succ (p + 1)).le]
    exact_mod_cast hle
  have hbelow : 2 ^ 52 * ((scaled (p + 1) : ℚ) - scaled p) ≤ scaled (p + 1) := by
    have hle := step_below_le_scaled ho
    rw [← Nat.cast_sub (scaled_lt_scaled_succ p).le]
    exact_mod_cast hle
  have hlow : midpoint p ≤ u := hu.above p rfl
  have hhigh : v ≤ midpoint (p + 1) := hv.below
  rw [midpoint] at hlow hhigh
  linarith

/-- A positive decimal of at most fifteen digits, written with exactly fifteen. -/
theorem Decimal.exists_fifteen {d : Decimal} (hpos : 0 < d.coefficient)
    (hlt : d.coefficient < 10 ^ 15) :
    ∃ d' : Decimal, d'.toRat = d.toRat ∧ 10 ^ 14 ≤ d'.coefficient ∧ d'.coefficient < 10 ^ 15 := by
  obtain ⟨hlow, hhigh⟩ := pow_length_toDigits hpos
  obtain ⟨l, hl⟩ : ∃ l, l = (Nat.toDigits 10 d.coefficient).length := ⟨_, rfl⟩
  rw [← hl] at hlow hhigh
  have hlpos : 0 < l := by
    rcases Nat.eq_zero_or_pos l with rfl | h
    · rw [Nat.pow_zero] at hhigh
      omega
    · exact h
  have hle : l ≤ 15 := by
    by_contra hgt
    have hpow : 10 ^ 15 ≤ 10 ^ (l - 1) := Nat.pow_le_pow_right (by decide) (by omega)
    omega
  refine ⟨⟨d.coefficient * 10 ^ (15 - l), d.exponent - (15 - l : Nat)⟩, ?_, ?_, ?_⟩
  · rw [toRat, toRat, Nat.cast_mul, Nat.cast_pow, Nat.cast_ofNat, zpow_sub₀ (by norm_num),
      zpow_natCast]
    field_simp
  · calc 10 ^ 14 = 10 ^ (l - 1) * 10 ^ (15 - l) := by
          rw [← Nat.pow_add]
          congr 1
          omega
      _ ≤ d.coefficient * 10 ^ (15 - l) := Nat.mul_le_mul_right _ hlow
  · calc d.coefficient * 10 ^ (15 - l) < 10 ^ l * 10 ^ (15 - l) :=
          Nat.mul_lt_mul_of_pos_right hhigh (Nat.pow_pos (by decide))
      _ = 10 ^ 15 := by
          rw [← Nat.pow_add]
          congr 1
          omega

/-- A decimal as a multiple of a lower power of ten. -/
theorem Decimal.exists_at_exponent (d : Decimal) {e : Int} (h : e ≤ d.exponent) :
    ∃ c : Nat, d.toRat = (Decimal.mk c e).toRat := by
  refine ⟨d.coefficient * 10 ^ (d.exponent - e).toNat, ?_⟩
  have hexponent : d.exponent = (d.exponent - e).toNat + e := by omega
  rw [toRat, toRat, Nat.cast_mul, Nat.cast_pow, Nat.cast_ofNat, mul_assoc, ← zpow_natCast,
    ← zpow_add₀ (by norm_num), ← hexponent]

/-- Multiples of a unit that is large against a magnitude, at the distance of rationals that
    round to it. -/
theorem le_of_close {a b : Nat} {s m : ℚ} (hs : 0 < s) (hm : m ≤ 2 * 10 ^ 15 * s)
    (h : (a * s - b * s) * 2 ^ 52 ≤ m) : a ≤ b := by
  by_contra hlt
  have hstep : ((b + 1 : Nat) : ℚ) * s ≤ a * s :=
    mul_le_mul_of_nonneg_right (Nat.cast_le.2 (by omega)) hs.le
  rw [Nat.cast_add, Nat.cast_one] at hstep
  linarith

/-- A decimal of at most fifteen digits that rounds to a magnitude with all bits of precision
    has the value of the shortest decimal. -/
theorem shortest_toRat_eq {d : Decimal} {o : Nat} (hdigits : d.coefficient < 10 ^ 15)
    (hblock : block ≤ o) (hlt : o < finiteOrdinals) (h : RoundsTo (inUnits d.toRat) o) :
    (shortest o).toRat = d.toRat := by
  have ho : 0 < o := Nat.lt_of_lt_of_le (by decide) hblock
  have hpos : 0 < d.coefficient := by
    refine Nat.pos_of_ne_zero fun hzero => ?_
    have hunits := h.pos ho
    rw [Decimal.toRat, hzero, Nat.cast_zero, zero_mul, inUnits, zero_mul] at hunits
    exact lt_irrefl _ hunits
  obtain ⟨⟨c, e⟩, hvalue, hlow, hhigh⟩ := Decimal.exists_fifteen hpos hdigits
  rw [← hvalue] at h ⊢
  obtain ⟨s, hs⟩ : ∃ s, s = inUnits (10 ^ e) := ⟨_, rfl⟩
  have hspos : 0 < s := hs ▸ mul_pos (by positivity) unitsOfOne_pos
  have hunits (c : Nat) : inUnits (Decimal.mk c e).toRat = c * s := by
    rw [hs, Decimal.inUnits_toRat]
  have hlow' : (10 ^ 14 : ℚ) * s ≤ c * s :=
    mul_le_mul_of_nonneg_right (by exact_mod_cast hlow) hspos.le
  have hhigh' : (c : ℚ) * s ≤ 10 ^ 15 * s :=
    mul_le_mul_of_nonneg_right (by exact_mod_cast hhigh.le) hspos.le
  -- The magnitude lies close to the decimal.
  have hround : RoundsTo (c * s) o := hunits c ▸ h
  have hbelow := RoundsTo.sub_le hblock hround (RoundsTo.scaled_self o)
  have habove := RoundsTo.sub_le hblock (RoundsTo.scaled_self o) hround
  -- So the search does not end before the exponent of the decimal.
  obtain ⟨found, n, -, hshortest, hfound, hnone⟩ := exists_shortest_eq ho hlt
  obtain ⟨lead, hlead⟩ : ∃ lead, lead = leadingExponent (scaled o) 308 640 := ⟨_, rfl⟩
  have hleadHigh := (leadingExponent_scaled ho hlt).2
  rw [← hlead] at hfound hnone hleadHigh
  have hle : e ≤ lead := by
    by_contra hgt
    have hsmall : inUnits (10 ^ (lead + 1)) ≤ s :=
      hs ▸ inUnits_le_inUnits.2 (zpow_le_zpow_right₀ (by norm_num) (by omega))
    linarith
  obtain ⟨hfoundRounds, hfoundExponent, -⟩ := roundsTo_of_neighbour? ho hfound
  have hn : e ≤ found.exponent := by
    by_contra hgt
    obtain ⟨d, hd⟩ := exists_neighbour? ho h
    have hk := hnone (lead - e).toNat (by omega)
    rw [Int.toNat_of_nonneg (by omega), Int.sub_sub_self, hd] at hk
    cases hk
  -- Two multiples of one power of ten, closer than that power.
  obtain ⟨c', hc'⟩ := found.exists_at_exponent hn
  rw [hc', hunits] at hfoundRounds
  have hm : (scaled o : ℚ) ≤ 2 * 10 ^ 15 * s := by linarith
  have hclose := RoundsTo.sub_le hblock hround hfoundRounds
  have hclose' := RoundsTo.sub_le hblock hfoundRounds hround
  rw [hshortest, Decimal.toRat_stripZeros, hc', Nat.le_antisymm (le_of_close hspos hm hclose) (le_of_close hspos hm hclose')]

end Stylebook.Number
