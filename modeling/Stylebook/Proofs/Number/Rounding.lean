/-
  Stylebook.Proofs.Number.Rounding

  What a quotient rounds to. A quotient of natural numbers is rounded in three exact steps: the
  exponent of its leading power of two (`floorLog_spec`), the significand to the nearest
  natural number (`roundAt_nearest`), and the two put together into an ordinal, where a
  significand that carries lands in the next block (`RoundsTo.of_nearest`).

  The outcome is the relation of `Magnitude`: the number found is the one that the quotient
  rounds to (`Binary64.ofQuotient?_eq_some_iff`), and there is one exactly below the midpoint
  behind the largest number (`Binary64.exists_ofQuotient?_iff`).
-/

import Mathlib.Algebra.Order.Field.Power
import Mathlib.Tactic.FieldSimp
import Stylebook.Proofs.Number.Magnitude

namespace Stylebook.Number

/-- How many units of `2 ^ -1075` make one. -/
def unitsOfOne : ℚ := 2 ^ 1075

theorem unitsOfOne_pos : 0 < unitsOfOne := pow_pos two_pos 1075

theorem cast_natPow (b n : Nat) : ((Nat.pow b n : Nat) : ℚ) = (b : ℚ) ^ n := by
  rw [Nat.pow_eq, Nat.cast_pow]

-- Here and below the exponent is made a variable, so that no power of it is computed.
theorem cast_unitsOfOne : ((Nat.pow 2 1075 : Nat) : ℚ) = unitsOfOne := by
  rw [unitsOfOne]
  generalize 1075 = n
  exact cast_natPow 2 n

/-- A value in units of `2 ^ -1075`. -/
def inUnits (value : ℚ) : ℚ := value * unitsOfOne

theorem inUnits_le_inUnits {v w : ℚ} : inUnits v ≤ inUnits w ↔ v ≤ w :=
  mul_le_mul_iff_left₀ unitsOfOne_pos

/-! ## The nearest natural number -/

/-- A natural number is nearest to a rational, and even if another one is as near. -/
structure Nearest (x : ℚ) (r : Nat) : Prop where
  below : 2 * x ≤ 2 * r + 1
  below_even : 2 * x = 2 * r + 1 → r % 2 = 0
  above : (2 * r : ℚ) - 1 ≤ 2 * x
  above_even : (2 * r : ℚ) - 1 = 2 * x → r % 2 = 0

theorem roundHalfEven_nearest (num : Nat) {den : Nat} (hden : 0 < den) :
    Nearest (num / den) (roundHalfEven num den) := by
  have hden' : (0 : ℚ) < den := Nat.cast_pos.2 hden
  have hne : (den : ℚ) ≠ 0 := hden'.ne'
  -- Over the common denominator the bounds are between natural numbers.
  obtain ⟨r, hr⟩ : ∃ r, r = roundHalfEven num den := ⟨_, rfl⟩
  have hrem : num % den < den := Nat.mod_lt num hden
  have hnum : den * (num / den) + num % den = num := Nat.div_add_mod num den
  have hbounds : 2 * num ≤ 2 * (den * r) + den ∧ (2 * num = 2 * (den * r) + den → r % 2 = 0) ∧
      2 * (den * r) ≤ 2 * num + den ∧ (2 * (den * r) = 2 * num + den → r % 2 = 0) := by
    rw [roundHalfEven] at hr
    split at hr
    · have hmul : den * r = den * (num / den) + den := by rw [hr]; ring
      omega
    · have hmul : den * r = den * (num / den) := by rw [hr]
      omega
  obtain ⟨hbelow, hbelowEven, habove, haboveEven⟩ := hbounds
  have htwice : 2 * ((num : ℚ) / den) * den = 2 * num := by field_simp
  rw [← hr]
  refine ⟨?_, fun h => hbelowEven ?_, ?_, fun h => haboveEven ?_⟩
  · have hcast : (2 * num : ℚ) ≤ 2 * (den * r) + den := by exact_mod_cast hbelow
    refine le_of_mul_le_mul_right ?_ hden'
    linarith
  · have hcast : (2 * num : ℚ) = 2 * (den * r) + den := by
      rw [← htwice, h]
      ring
    exact_mod_cast hcast
  · have hcast : (2 * (den * r) : ℚ) ≤ 2 * num + den := by exact_mod_cast habove
    refine le_of_mul_le_mul_right ?_ hden'
    linarith
  · have hcast : (2 * (den * r) : ℚ) = 2 * num + den := by
      rw [← htwice, ← h]
      ring
    exact_mod_cast hcast

/-- A power with an exponent that is not negative, as it is computed. -/
theorem cast_pow_toNat (b : Nat) {e : Int} (he : 0 ≤ e) :
    ((Nat.pow b e.toNat : Nat) : ℚ) = (b : ℚ) ^ e := by
  rw [cast_natPow, ← zpow_natCast, Int.toNat_of_nonneg he]

/-- A power with a negative exponent, as the quotient that it is computed by. -/
theorem cast_pow_neg_toNat (b : Nat) {e : Int} (he : ¬ 0 ≤ e) :
    ((Nat.pow b (-e).toNat : Nat) : ℚ) = ((b : ℚ) ^ e)⁻¹ := by
  rw [cast_natPow, ← zpow_natCast, Int.toNat_of_nonneg (by omega), zpow_neg]

theorem roundAt_nearest (num : Nat) {den : Nat} (hden : 0 < den) (e : Int) :
    Nearest (num / den / 2 ^ e) (roundAt num den e) := by
  rw [roundAt]
  split
  · next he =>
    have hpos : 0 < den * Nat.pow 2 e.toNat := Nat.mul_pos hden (Nat.pow_pos (by decide))
    have h := roundHalfEven_nearest num hpos
    rwa [Nat.cast_mul, cast_pow_toNat 2 he, ← div_div] at h
  · next he =>
    have h := roundHalfEven_nearest (num * Nat.pow 2 (-e).toNat) hden
    rwa [Nat.cast_mul, cast_pow_neg_toNat 2 he, mul_div_right_comm, ← div_eq_mul_inv] at h

/-! ## The leading power of two -/

/-- The logarithms of numerator and denominator leave two exponents open for a quotient. -/
theorem quotient_bounds {num den : Nat} (hnum : 0 < num) (hden : 0 < den) {g : Int}
    (hg : g = Nat.log2 num - Nat.log2 den) :
    (2 : ℚ) ^ (g - 1) ≤ num / den ∧ (num / den : ℚ) < 2 ^ (g + 1) := by
  have hden' : (0 : ℚ) < den := Nat.cast_pos.2 hden
  have htwo : (2 : ℚ) ≠ 0 := by norm_num
  rw [le_div_iff₀ hden', div_lt_iff₀ hden']
  constructor
  · have hlow : (2 : ℚ) ^ Nat.log2 num ≤ num := by
      exact_mod_cast Nat.log2_self_le hnum.ne'
    have hhigh : (den : ℚ) ≤ 2 ^ (Nat.log2 den + 1) := by
      exact_mod_cast Nat.lt_log2_self.le
    have hsplit : (2 : ℚ) ^ (g - 1) * 2 ^ (Nat.log2 den + 1) = 2 ^ Nat.log2 num := by
      rw [← zpow_natCast, ← zpow_natCast, ← zpow_add₀ htwo, hg]
      congr 1
      push_cast
      ring
    calc (2 : ℚ) ^ (g - 1) * den ≤ 2 ^ (g - 1) * 2 ^ (Nat.log2 den + 1) :=
          mul_le_mul_of_nonneg_left hhigh (by positivity)
      _ = 2 ^ Nat.log2 num := hsplit
      _ ≤ num := hlow
  · have hhigh : (num : ℚ) < 2 ^ (Nat.log2 num + 1) := by exact_mod_cast Nat.lt_log2_self
    have hlow : (2 : ℚ) ^ Nat.log2 den ≤ den := by
      exact_mod_cast Nat.log2_self_le hden.ne'
    have hsplit : (2 : ℚ) ^ (g + 1) * 2 ^ Nat.log2 den = 2 ^ (Nat.log2 num + 1) := by
      rw [← zpow_natCast, ← zpow_natCast, ← zpow_add₀ htwo, hg]
      congr 1
      push_cast
      ring
    calc (num : ℚ) < 2 ^ (Nat.log2 num + 1) := hhigh
      _ = 2 ^ (g + 1) * 2 ^ Nat.log2 den := hsplit.symm
      _ ≤ 2 ^ (g + 1) * den := mul_le_mul_of_nonneg_left hlow (by positivity)

/-- The exponent is that of the power of two at or below the quotient. -/
theorem floorLog_spec {num den : Nat} (hnum : 0 < num) (hden : 0 < den) :
    (2 : ℚ) ^ floorLog num den ≤ num / den ∧ (num / den : ℚ) < 2 ^ (floorLog num den + 1) := by
  have hden' : (0 : ℚ) < den := Nat.cast_pos.2 hden
  obtain ⟨g, hg⟩ : ∃ g : Int, g = Nat.log2 num - Nat.log2 den := ⟨_, rfl⟩
  obtain ⟨hlower, hupper⟩ := quotient_bounds hnum hden hg
  -- The comparison settles which of the two it is.
  have hbelow : (if 0 ≤ g then den * Nat.pow 2 g.toNat ≤ num else den ≤ num * Nat.pow 2 (-g).toNat)
      ↔ (2 : ℚ) ^ g ≤ num / den := by
    rw [le_div_iff₀ hden']
    split
    · next hnonneg =>
      rw [← Nat.cast_le (α := ℚ), Nat.cast_mul, cast_pow_toNat 2 hnonneg, mul_comm]
      rfl
    · next hneg =>
      have hpos : (0 : ℚ) < 2 ^ g := by positivity
      rw [← Nat.cast_le (α := ℚ), Nat.cast_mul, cast_pow_neg_toNat 2 hneg, Nat.cast_ofNat,
        le_mul_inv_iff₀ hpos, mul_comm]
  have hfloor : floorLog num den = if (2 : ℚ) ^ g ≤ num / den then g else g - 1 := by
    rw [floorLog]
    simp only [← hg, hbelow]
  rw [hfloor]
  split
  · next h => exact ⟨h, hupper⟩
  · next h =>
    rw [Int.sub_add_cancel]
    exact ⟨hlower, lt_of_not_ge h⟩

/-! ## The nearest magnitude -/

namespace Nearest

variable {m : ℚ} {k r : Nat}

theorem le_two_blocks (hr : Nearest m r) (hlt : m < 2 * block) : r ≤ 2 * block := by
  have habove := hr.above
  have hcast : (2 * r : ℚ) < 2 * (2 * block) + 1 := by linarith
  have hnat : 2 * r < 2 * (2 * block) + 1 := by exact_mod_cast hcast
  omega

theorem block_le (hr : Nearest m r) (hm : block ≤ m) : block ≤ r := by
  have hbelow := hr.below
  have hcast : (2 * block : ℚ) ≤ 2 * r + 1 := by linarith
  have hnat : 2 * block ≤ 2 * r + 1 := by exact_mod_cast hcast
  omega

/-- The whole lies below the midpoint above the rounded significand. -/
theorem le_midpoint (hr : Nearest m r) (hlt : m < 2 * block) (hk : k = 0 ∨ block ≤ m) :
    m * 2 ^ (k + 1) ≤ midpoint (k * block + r) ∧
      (m * 2 ^ (k + 1) = midpoint (k * block + r) → r % 2 = 0) := by
  have hpow : (0 : ℚ) < 2 ^ k := by positivity
  have hsplit : m * 2 ^ (k + 1) = 2 * m * 2 ^ k := by ring
  have hrge : k = 0 ∨ block ≤ r := hk.imp_right hr.block_le
  rcases Nat.lt_or_ge r (2 * block) with hlt' | hge
  · rw [hsplit, midpoint_block k hlt' hrge]
    exact ⟨mul_le_mul_of_nonneg_right hr.below hpow.le,
      fun h => hr.below_even (mul_right_cancel₀ hpow.ne' h)⟩
  · -- A significand rounded up to the block's end lies below the magnitude there.
    obtain rfl : r = 2 * block := Nat.le_antisymm (hr.le_two_blocks hlt) hge
    have hscaled : m * 2 ^ (k + 1) < scaled (k * block + 2 * block) := by
      rw [scaled_block k le_rfl hrge]
      push_cast
      exact mul_lt_mul_of_pos_right hlt (by positivity)
    have hmidpoint := hscaled.trans (scaled_lt_midpoint _)
    exact ⟨hmidpoint.le, fun h => absurd h hmidpoint.ne⟩

/-- The whole lies above the midpoint below the rounded significand. -/
theorem midpoint_le (hr : Nearest m r) (hlt : m < 2 * block) (hk : k = 0 ∨ block ≤ m) {p : Nat}
    (hp : p + 1 = k * block + r) : midpoint p ≤ m * 2 ^ (k + 1) ∧
      (midpoint p = m * 2 ^ (k + 1) → r % 2 = 0) := by
  have hpow : (0 : ℚ) < 2 ^ k := by positivity
  have hsplit : m * 2 ^ (k + 1) = 2 * m * 2 ^ k := by ring
  have hrle := hr.le_two_blocks hlt
  have hrge : k = 0 ∨ block ≤ r := hk.imp_right hr.block_le
  have hrpos : 0 < r := by
    rcases hrge with rfl | hge
    · omega
    · exact Nat.lt_of_lt_of_le (by decide) hge
  obtain ⟨q, rfl⟩ := Nat.exists_eq_succ_of_ne_zero hrpos.ne'
  by_cases hq : k = 0 ∨ block ≤ q
  · obtain rfl : p = k * block + q := by omega
    have hmidpoint : midpoint (k * block + q) = (2 * (q + 1 : Nat) - 1) * 2 ^ k := by
      rw [midpoint_block k (by omega) hq]
      push_cast
      ring
    rw [hsplit, hmidpoint]
    exact ⟨mul_le_mul_of_nonneg_right hr.above hpow.le,
      fun h => hr.above_even (mul_right_cancel₀ hpow.ne' h)⟩
  · -- At a block's start the midpoint below lies in the block before, with half the step.
    obtain ⟨hk0, hqlt⟩ := not_or.1 hq
    obtain ⟨j, rfl⟩ := Nat.exists_eq_succ_of_ne_zero hk0
    have hq' : q + 1 = block := Nat.le_antisymm (by omega) (hrge.resolve_left hk0)
    have hp' : p = j * block + (2 * block - 1) := by
      rw [Nat.succ_eq_add_one, Nat.add_mul, Nat.one_mul] at hp
      omega
    have hm : (block : ℚ) ≤ m := hk.resolve_left hk0
    have hpowj : (0 : ℚ) < 2 ^ j := by positivity
    have hmidpoint : midpoint p < m * 2 ^ (j + 1 + 1) := by
      rw [hp', midpoint_block j (by decide) (.inr (by decide))]
      have hcast : ((2 * block - 1 : Nat) : ℚ) = 2 * block - 1 := by
        rw [Nat.cast_sub (by decide)]
        push_cast
        ring
      calc (2 * ((2 * block - 1 : Nat) : ℚ) + 1) * 2 ^ j < 4 * block * 2 ^ j := by
            rw [hcast]
            exact mul_lt_mul_of_pos_right (by linarith) hpowj
        _ ≤ 4 * m * 2 ^ j := mul_le_mul_of_nonneg_right (by linarith) hpowj.le
        _ = m * 2 ^ (j + 1 + 1) := by ring
    exact ⟨hmidpoint.le, fun h => absurd h hmidpoint.ne⟩

end Nearest

/-- A significand rounded to the nearest natural number gives the magnitude that the whole
    rounds to. -/
theorem RoundsTo.of_nearest {m : ℚ} {k r : Nat} (hr : Nearest m r) (hlt : m < 2 * block)
    (hk : k = 0 ∨ block ≤ m) : RoundsTo (m * 2 ^ (k + 1)) (k * block + r) := by
  have hparity : (k * block + r) % 2 = r % 2 := by
    have hblock : block = 2 * (block / 2) := by decide
    rw [hblock, Nat.add_mod, Nat.mul_left_comm, Nat.mul_mod_right, Nat.zero_add, Nat.mod_mod]
  exact ⟨(hr.le_midpoint hlt hk).1, fun h => hparity.trans ((hr.le_midpoint hlt hk).2 h),
    fun p hp => (hr.midpoint_le hlt hk hp).1,
    fun p hp h => hparity.trans ((hr.midpoint_le hlt hk hp).2 h)⟩

/-- A positive quotient rounds to the magnitude found for it. -/
theorem nearestOrdinal_roundsTo {num den : Nat} (hnum : 0 < num) (hden : 0 < den) :
    RoundsTo (inUnits (num / den)) (nearestOrdinal num den) := by
  have htwo : (2 : ℚ) ≠ 0 := by norm_num
  obtain ⟨hlow, hhigh⟩ := floorLog_spec hnum hden
  obtain ⟨e, he⟩ : ∃ e : Int, e = max (-1074) (floorLog num den - 52) := ⟨_, rfl⟩
  obtain ⟨k, hk⟩ : ∃ k : Nat, k = (e + 1074).toNat := ⟨_, rfl⟩
  have hpow : (0 : ℚ) < 2 ^ e := by positivity
  have hke : (k : Int) + 1 = e + 1075 := by omega
  have hunits : inUnits (num / den) = num / den / 2 ^ e * 2 ^ (k + 1) := by
    have hsplit : (2 : ℚ) ^ (k + 1) = 2 ^ e * unitsOfOne := by
      rw [← zpow_natCast, Nat.cast_add, Nat.cast_one, hke, zpow_add₀ htwo]
      rfl
    rw [inUnits, hsplit, ← mul_assoc, div_mul_cancel₀ _ hpow.ne']
  have hlt : (num / den / 2 ^ e : ℚ) < 2 * block := by
    have hblock : (2 * block : ℚ) = 2 ^ (53 : Int) := by norm_num [block]
    rw [div_lt_iff₀ hpow, hblock, ← zpow_add₀ htwo]
    exact hhigh.trans_le (zpow_le_zpow_right₀ (by norm_num) (by omega))
  have hge : k = 0 ∨ (block : ℚ) ≤ num / den / 2 ^ e := by
    rcases Nat.eq_zero_or_pos k with hzero | hpos
    · exact .inl hzero
    · -- Above the first block the exponent is the one of the leading power of two.
      have hblock : (block : ℚ) = 2 ^ (52 : Int) := by norm_num [block]
      refine .inr ?_
      rw [le_div_iff₀ hpow, hblock, ← zpow_add₀ htwo]
      exact le_trans (zpow_le_zpow_right₀ (by norm_num) (by omega)) hlow
  have h := RoundsTo.of_nearest (roundAt_nearest num hden e) hlt hge
  rw [hunits, nearestOrdinal]
  simp only [← he, ← hk]
  exact h

/-! ## Finite numbers -/

/-- The midpoint behind the largest number, in units of `2 ^ -1075`. From there on a rational
    rounds to no finite number. -/
def overflowBound : ℚ := midpoint (finiteOrdinals - 1)

theorem RoundsTo.lt_finiteOrdinals_iff {u : ℚ} {o : Nat} (h : RoundsTo u o) :
    o < finiteOrdinals ↔ u < overflowBound := by
  constructor
  · intro hlt
    have hle : midpoint o ≤ overflowBound := midpoint_strictMono.monotone (by omega)
    refine lt_of_le_of_ne (h.below.trans hle) fun heq => ?_
    -- The last ordinal is odd, so the midpoint behind it is rounded away from it.
    have hlast : midpoint o = midpoint (finiteOrdinals - 1) :=
      le_antisymm hle (heq.ge.trans h.below)
    obtain rfl := midpoint_strictMono.injective hlast
    exact absurd (h.below_even heq) (by decide)
  · intro hlt
    by_contra hge
    have hpos : 0 < finiteOrdinals := by decide
    obtain ⟨p, rfl⟩ : ∃ p, p + 1 = o := ⟨o - 1, by omega⟩
    have hle : overflowBound ≤ midpoint p := midpoint_strictMono.monotone (by omega)
    exact absurd (hle.trans (h.above p rfl)) (not_le.2 hlt)

theorem scaled_lt_overflowBound {o : Nat} (h : o < finiteOrdinals) :
    (scaled o : ℚ) < overflowBound :=
  (RoundsTo.scaled_self o).lt_finiteOrdinals_iff.1 h

/-- The sign and a rational that rounds to the magnitude determine a number. -/
theorem Binary64.some_eq_some_iff_of_roundsTo {u : ℚ} {x y : Binary64}
    (h : RoundsTo u x.ordinal) :
    some x = some y ↔ y.negative = x.negative ∧ RoundsTo u y.ordinal := by
  rw [Option.some.injEq]
  constructor
  · rintro rfl
    exact ⟨rfl, h⟩
  · rintro ⟨hnegative, hy⟩
    obtain ⟨negative, ordinal, _⟩ := x
    obtain ⟨negative', ordinal', _⟩ := y
    cases h.unique hy
    cases hnegative
    rfl

/-- The ordinal that is computed for a quotient, without regard to the largest one. -/
theorem ofQuotient?_ordinal_roundsTo (num : Nat) {den : Nat} (hden : 0 < den) :
    RoundsTo (inUnits (num / den)) (if num = 0 then 0 else nearestOrdinal num den) := by
  split
  · next hzero =>
    rw [hzero, Nat.cast_zero, zero_div, inUnits, zero_mul]
    exact .zero_of_le (by norm_num)
  · next hpos => exact nearestOrdinal_roundsTo (Nat.pos_of_ne_zero hpos) hden

/-- A quotient gives the number that it rounds to, if there is one. -/
theorem Binary64.ofQuotient?_eq_some_iff {negative : Bool} {num den : Nat} (hden : 0 < den)
    {x : Binary64} :
    ofQuotient? negative num den = some x
      ↔ x.negative = negative ∧ RoundsTo (inUnits (num / den)) x.ordinal := by
  have hrounds := ofQuotient?_ordinal_roundsTo num hden
  rw [ofQuotient?]
  generalize (if num = 0 then 0 else nearestOrdinal num den) = o at hrounds ⊢
  split
  · next hlt => exact some_eq_some_iff_of_roundsTo (x := ⟨negative, o, hlt⟩) hrounds
  · next hge =>
    refine ⟨nofun, ?_⟩
    rintro ⟨-, hx⟩
    exact absurd (hrounds.unique hx ▸ x.ordinal_lt) hge

/-- There is one for every quotient below the midpoint behind the largest number. -/
theorem Binary64.exists_ofQuotient?_iff {negative : Bool} {num den : Nat} (hden : 0 < den) :
    (∃ x, ofQuotient? negative num den = some x) ↔ inUnits (num / den) < overflowBound := by
  have hrounds := ofQuotient?_ordinal_roundsTo num hden
  rw [← hrounds.lt_finiteOrdinals_iff]
  constructor
  · rintro ⟨x, hx⟩
    rw [hrounds.unique ((ofQuotient?_eq_some_iff hden).1 hx).2]
    exact x.ordinal_lt
  · intro hlt
    exact ⟨⟨negative, _, hlt⟩, (ofQuotient?_eq_some_iff hden).2 ⟨rfl, hrounds⟩⟩

/-! ## Powers of ten in units -/

/-- A negative power of ten in units, compared in whole numbers. -/
theorem inUnits_ten_zpow_le_one {e : Int} {n : Nat} (he : e = -(n : Int))
    (h : Nat.pow 2 1075 ≤ Nat.pow 10 n) : inUnits (10 ^ e) ≤ 1 := by
  have hpos : (0 : ℚ) < 10 ^ n := by positivity
  have hcast : unitsOfOne ≤ 10 ^ n := by
    rw [← cast_unitsOfOne]
    exact (Nat.cast_le.2 h).trans_eq (cast_natPow 10 n)
  rw [inUnits, he, zpow_neg, zpow_natCast, inv_mul_le_iff₀ hpos, mul_one]
  exact hcast

theorem le_inUnits_ten_zpow {e : Int} {n a : Nat} (he : e = -(n : Int))
    (h : a * Nat.pow 10 n ≤ Nat.pow 2 1075) : (a : ℚ) ≤ inUnits (10 ^ e) := by
  have hpos : (0 : ℚ) < 10 ^ n := by positivity
  have hcast : a * 10 ^ n ≤ unitsOfOne :=
    calc (a * 10 ^ n : ℚ) = (a * Nat.pow 10 n : Nat) := by
          rw [Nat.cast_mul, cast_natPow, Nat.cast_ofNat]
      _ ≤ (Nat.pow 2 1075 : Nat) := Nat.cast_le.2 h
      _ = unitsOfOne := cast_unitsOfOne
  rw [inUnits, he, zpow_neg, zpow_natCast, ← div_eq_inv_mul, le_div_iff₀ hpos]
  exact hcast

/-- Powers of ten behind all numbers. -/
theorem scaled_finiteOrdinals_le {e : Int} (he : 309 ≤ e) :
    (scaled finiteOrdinals : ℚ) ≤ inUnits (10 ^ e) := by
  have hlast : scaled finiteOrdinals ≤ Nat.pow 10 309 * Nat.pow 2 1075 := by decide +kernel
  have hcast : ((Nat.pow 10 309 : Nat) : ℚ) ≤ 10 ^ e := by
    have hexponent : ((309 : Nat) : Int) ≤ e := he
    generalize 309 = n at hexponent ⊢
    rw [cast_natPow, ← zpow_natCast]
    exact zpow_le_zpow_right₀ (by norm_num) hexponent
  refine le_trans ?_ (inUnits_le_inUnits.2 hcast)
  rw [inUnits, ← cast_unitsOfOne, ← Nat.cast_mul]
  exact Nat.cast_le.2 hlast

/-- Rationals that are not that close to zero round to a magnitude with all bits of
    precision. -/
theorem block_le_of_roundsTo {v : ℚ} {o : Nat} (hv : 10 ^ (-307 : Int) ≤ v)
    (h : RoundsTo (inUnits v) o) : block ≤ o := by
  have hpow : scaled block * Nat.pow 10 307 ≤ Nat.pow 2 1075 := by decide +kernel
  have hlarge := (le_inUnits_ten_zpow rfl hpow).trans (inUnits_le_inUnits.2 hv)
  by_contra hlt
  have hle : (scaled (o + 1) : ℚ) ≤ scaled block :=
    Nat.cast_le.2 (scaled_strictMono.monotone (by omega))
  have hbelow := (h.below.trans_lt (midpoint_lt_scaled_succ o)).trans_le hle
  exact absurd hlarge (not_le.2 hbelow)

end Stylebook.Number
