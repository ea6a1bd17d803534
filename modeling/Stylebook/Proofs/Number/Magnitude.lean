/-
  Stylebook.Proofs.Number.Magnitude

  The magnitudes of binary numbers on the line of all rationals, in units of `2 ^ -1075`, in
  which the magnitudes and the midpoints between them are whole. Magnitudes grow with their
  ordinals (`scaled_strictMono`), by steps that are small against them
  (`scaled_le_step_above`, `scaled_le_step_below`).

  Each magnitude has an interval of rationals that round to it (`RoundsTo`): from midpoint to
  midpoint, with the midpoints if its ordinal is even. Rounding keeps the order
  (`RoundsTo.mono`), so a rational rounds to one magnitude at most (`RoundsTo.unique`), and what
  lies between two rationals that round to a magnitude rounds to it too (`RoundsTo.between`).
  That it rounds to some magnitude is shown where one is computed.
-/

import Mathlib.Algebra.Order.Field.Rat
import Mathlib.Tactic.Linarith
import Mathlib.Tactic.Positivity
import Mathlib.Tactic.Ring
import Stylebook.Number.Shortest

namespace Stylebook.Number

/-! ## Magnitudes by their ordinals -/

/-- An ordinal as so many blocks and a significand on top. The significand of a block's end is
    the one of the next block's start, doubled. -/
theorem scaled_block (k : Nat) {r : Nat} (hr : r ≤ 2 * block) (h : k = 0 ∨ block ≤ r) :
    scaled (k * block + r) = r * 2 ^ (k + 1) := by
  have hblock : 0 < block := by decide
  have hpow (n : Nat) : Nat.pow 2 n = 2 ^ n := Nat.pow_eq
  rcases Nat.lt_or_ge r block with hlow | hhigh
  · -- Below the first block the ordinal counts the least magnitude.
    obtain rfl : k = 0 := h.resolve_right (Nat.not_le.2 hlow)
    rw [scaled, Nat.zero_mul, Nat.zero_add, if_pos hlow]
    omega
  · rcases Nat.lt_or_ge r (2 * block) with hlt | hge
    · obtain ⟨t, rfl⟩ := Nat.exists_eq_add_of_le hhigh
      have ht : t < block := by omega
      have hordinal : k * block + (block + t) = t + (k + 1) * block := by ring
      have hmod : (t + (k + 1) * block) % block = t := by
        rw [Nat.add_mul_mod_self_right, Nat.mod_eq_of_lt ht]
      have hdiv : (t + (k + 1) * block) / block = k + 1 := by
        rw [Nat.add_mul_div_right _ _ hblock, Nat.div_eq_of_lt ht, Nat.zero_add]
      have hnot : ¬ t + (k + 1) * block < block := by
        have hle : 1 * block ≤ (k + 1) * block := Nat.mul_le_mul_right block (by omega)
        omega
      rw [hordinal, scaled, if_neg hnot, hmod, hdiv, hpow]
    · obtain rfl : r = 2 * block := Nat.le_antisymm hr hge
      have hordinal : k * block + 2 * block = (k + 2) * block := by ring
      have hdiv : (k + 2) * block / block = k + 2 := Nat.mul_div_cancel _ hblock
      have hmod : (k + 2) * block % block = 0 := Nat.mul_mod_left _ _
      have hnot : ¬ (k + 2) * block < block := by
        have hle : 1 * block ≤ (k + 2) * block := Nat.mul_le_mul_right block (by omega)
        omega
      rw [hordinal, scaled, if_neg hnot, hmod, hdiv, hpow]
      ring

/-- Every ordinal is of this form, with a significand that is not at its block's end. -/
theorem exists_eq_block (ordinal : Nat) :
    ∃ k r, ordinal = k * block + r ∧ r < 2 * block ∧ (k = 0 ∨ block ≤ r) := by
  have hblock : 0 < block := by decide
  have hmod := Nat.mod_lt ordinal hblock
  have hdivmod := Nat.div_add_mod ordinal block
  rcases Nat.eq_zero_or_pos (ordinal / block) with hzero | hpos
  · rw [hzero] at hdivmod
    exact ⟨0, ordinal % block, by omega, by omega, .inl rfl⟩
  · refine ⟨ordinal / block - 1, block + ordinal % block, ?_, by omega, .inr (by omega)⟩
    obtain ⟨q, hq⟩ := Nat.exists_eq_succ_of_ne_zero (Nat.pos_iff_ne_zero.1 hpos)
    rw [hq] at hdivmod ⊢
    rw [Nat.succ_sub_one]
    linarith [Nat.mul_comm block (q + 1), Nat.add_mul q 1 block]

/-- The step from a magnitude to the next one. -/
theorem scaled_block_succ (k : Nat) {r : Nat} (hr : r < 2 * block) (h : k = 0 ∨ block ≤ r) :
    scaled (k * block + r + 1) = scaled (k * block + r) + 2 ^ (k + 1) := by
  rw [Nat.add_assoc, scaled_block k (by omega) (h.imp_right fun h => by omega),
    scaled_block k (by omega) h]
  ring

theorem scaled_lt_scaled_succ (ordinal : Nat) : scaled ordinal < scaled (ordinal + 1) := by
  obtain ⟨k, r, rfl, hr, h⟩ := exists_eq_block ordinal
  rw [scaled_block_succ k hr h]
  exact Nat.lt_add_of_pos_right (Nat.two_pow_pos _)

theorem scaled_strictMono : StrictMono scaled := strictMono_nat_of_lt_succ scaled_lt_scaled_succ

theorem two_dvd_scaled (ordinal : Nat) : 2 ∣ scaled ordinal := by
  obtain ⟨k, r, rfl, hr, h⟩ := exists_eq_block ordinal
  rw [scaled_block k (by omega) h, Nat.pow_succ]
  exact ⟨r * 2 ^ k, by ring⟩

/-- A magnitude is at most `2 ^ 53` steps upwards. -/
theorem scaled_le_step_above (ordinal : Nat) :
    scaled ordinal ≤ 2 ^ 53 * (scaled (ordinal + 1) - scaled ordinal) := by
  obtain ⟨k, r, rfl, hr, h⟩ := exists_eq_block ordinal
  have hr' : r ≤ 2 ^ 53 := by
    have hblock : 2 * block = 2 ^ 53 := by decide
    omega
  rw [scaled_block_succ k hr h, Nat.add_sub_cancel_left, scaled_block k (by omega) h]
  exact Nat.mul_le_mul_right _ hr'

/-- A magnitude is at most `2 ^ 53` steps downwards. -/
theorem scaled_le_step_below (ordinal : Nat) :
    scaled (ordinal + 1) ≤ 2 ^ 53 * (scaled (ordinal + 1) - scaled ordinal) := by
  have hblock : 2 * block = 2 ^ 53 := by decide
  obtain ⟨k, r, rfl, hr, h⟩ := exists_eq_block ordinal
  have hr' : r + 1 ≤ 2 ^ 53 := by omega
  rw [scaled_block_succ k hr h, Nat.add_sub_cancel_left, scaled_block k (by omega) h]
  calc r * 2 ^ (k + 1) + 2 ^ (k + 1) = (r + 1) * 2 ^ (k + 1) := by ring
    _ ≤ 2 ^ 53 * 2 ^ (k + 1) := Nat.mul_le_mul_right _ hr'

/-- Above the first block, a step upwards is at most a `2 ^ 52`th of a magnitude. -/
theorem step_above_le_scaled {ordinal : Nat} (h : block ≤ ordinal) :
    2 ^ 52 * (scaled (ordinal + 1) - scaled ordinal) ≤ scaled ordinal := by
  have hblock : block = 2 ^ 52 := by decide
  obtain ⟨k, r, rfl, hr, hk⟩ := exists_eq_block ordinal
  have hr' : 2 ^ 52 ≤ r := by
    rcases hk with rfl | hk
    · omega
    · omega
  rw [scaled_block_succ k hr hk, Nat.add_sub_cancel_left, scaled_block k (by omega) hk]
  exact Nat.mul_le_mul_right _ hr'

/-! ## Midpoints -/

/-- The midpoint between a magnitude and the next one. -/
def midpoint (ordinal : Nat) : ℚ := (scaled ordinal + scaled (ordinal + 1)) / 2

theorem scaled_lt_midpoint (ordinal : Nat) : (scaled ordinal : ℚ) < midpoint ordinal := by
  have hlt : (scaled ordinal : ℚ) < scaled (ordinal + 1) :=
    Nat.cast_lt.2 (scaled_lt_scaled_succ ordinal)
  rw [midpoint]
  linarith

theorem midpoint_lt_scaled_succ (ordinal : Nat) :
    midpoint ordinal < (scaled (ordinal + 1) : ℚ) := by
  have hlt : (scaled ordinal : ℚ) < scaled (ordinal + 1) :=
    Nat.cast_lt.2 (scaled_lt_scaled_succ ordinal)
  rw [midpoint]
  linarith

theorem midpoint_strictMono : StrictMono midpoint :=
  strictMono_nat_of_lt_succ fun ordinal =>
    (midpoint_lt_scaled_succ ordinal).trans (scaled_lt_midpoint (ordinal + 1))

/-- The midpoint within a block. -/
theorem midpoint_block (k : Nat) {r : Nat} (hr : r < 2 * block) (h : k = 0 ∨ block ≤ r) :
    midpoint (k * block + r) = (2 * r + 1) * 2 ^ k := by
  rw [midpoint, scaled_block_succ k hr h, scaled_block k (by omega) h]
  push_cast
  ring

/-! ## What rounds to a magnitude -/

/-- A rational, in units of `2 ^ -1075`, rounds to the magnitude with this ordinal: it lies
    between the midpoints, and if it is one of them the ordinal is even. -/
structure RoundsTo (u : ℚ) (ordinal : Nat) : Prop where
  below : u ≤ midpoint ordinal
  below_even : u = midpoint ordinal → ordinal % 2 = 0
  above : ∀ p, p + 1 = ordinal → midpoint p ≤ u
  above_even : ∀ p, p + 1 = ordinal → midpoint p = u → ordinal % 2 = 0

namespace RoundsTo

variable {u v w : ℚ} {o o' : Nat}

/-- Rounding keeps the order. -/
theorem mono (h : RoundsTo u o) (h' : RoundsTo v o') (huv : u ≤ v) : o ≤ o' := by
  by_contra hlt
  obtain ⟨p, rfl⟩ : ∃ p, p + 1 = o := ⟨o - 1, by omega⟩
  have hop : midpoint o' ≤ midpoint p := midpoint_strictMono.monotone (by omega)
  -- Only a midpoint could round to both, and two neighbours are not both even.
  have hlow : midpoint p ≤ u := h.above p rfl
  have hhigh : v ≤ midpoint o' := h'.below
  have hmidpoint : midpoint p = midpoint o' := by linarith
  have heven := h.above_even p rfl (by linarith)
  have heven' := h'.below_even (by linarith)
  have hp : p = o' := midpoint_strictMono.injective hmidpoint
  omega

/-- A rational rounds to one magnitude at most. -/
theorem unique (h : RoundsTo u o) (h' : RoundsTo u o') : o = o' :=
  Nat.le_antisymm (h.mono h' le_rfl) (h'.mono h le_rfl)

/-- What lies between two rationals that round to a magnitude rounds to it. -/
theorem between (hu : RoundsTo u o) (hw : RoundsTo w o) (huv : u ≤ v) (hvw : v ≤ w) :
    RoundsTo v o where
  below := hvw.trans hw.below
  below_even h := hw.below_even (le_antisymm hw.below (h ▸ hvw))
  above p hp := (hu.above p hp).trans huv
  above_even p hp h := hu.above_even p hp (le_antisymm (hu.above p hp) (h ▸ huv))

/-- What lies strictly between the midpoints rounds to the magnitude. -/
theorem of_lt (hbelow : u < midpoint o) (habove : ∀ p, p + 1 = o → midpoint p < u) :
    RoundsTo u o where
  below := hbelow.le
  below_even h := absurd h hbelow.ne
  above p hp := (habove p hp).le
  above_even p hp h := absurd h (habove p hp).ne

/-- A magnitude rounds to itself. -/
theorem scaled_self (o : Nat) : RoundsTo (scaled o) o := by
  refine .of_lt (scaled_lt_midpoint o) ?_
  rintro p rfl
  exact midpoint_lt_scaled_succ p

/-- Zero rounds to zero, and so does everything up to half of the least magnitude. -/
theorem zero_of_le (hu : u ≤ 1) : RoundsTo u 0 := by
  have hmidpoint : midpoint 0 = 1 := by
    have h := midpoint_block 0 (r := 0) (by decide) (.inl rfl)
    norm_num at h
    exact h
  exact ⟨hmidpoint ▸ hu, fun _ => rfl, fun p hp => absurd hp (Nat.succ_ne_zero p),
    fun p hp => absurd hp (Nat.succ_ne_zero p)⟩

/-- What rounds to a magnitude above zero is positive. -/
theorem pos (h : RoundsTo u o) (ho : 0 < o) : 0 < u := by
  obtain ⟨p, rfl⟩ : ∃ p, p + 1 = o := ⟨o - 1, by omega⟩
  have hnonneg : (0 : ℚ) ≤ scaled p := Nat.cast_nonneg _
  exact lt_of_lt_of_le (lt_of_le_of_lt hnonneg (scaled_lt_midpoint p)) (h.above p rfl)

/-- Above the first block, a magnitude is hardly greater than what rounds to it. -/
theorem scaled_le (h : RoundsTo u o) (ho : block < o) :
    (scaled o : ℚ) * 2 ^ 53 ≤ u * (2 ^ 53 + 1) := by
  obtain ⟨p, rfl⟩ : ∃ p, p + 1 = o := ⟨o - 1, by omega⟩
  have hstep : 2 ^ 52 * ((scaled (p + 1) : ℚ) - scaled p) ≤ scaled p := by
    have hblock : block ≤ p := by omega
    have hle := step_above_le_scaled hblock
    rw [← Nat.cast_sub (scaled_lt_scaled_succ p).le]
    exact_mod_cast hle
  have hlow : midpoint p ≤ u := h.above p rfl
  rw [midpoint] at hlow
  linarith

end RoundsTo

end Stylebook.Number
