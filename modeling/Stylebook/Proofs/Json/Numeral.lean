/-
  Stylebook.Proofs.Json.Numeral

  The parts of a numeral, each by the text it is read from: the digits before the
  point, the fraction, the exponent. From these descriptions follow that a number
  is taken off the front of a text and that it does not depend on what follows if
  that stops it.
-/

import Stylebook.Json.Numeral
import Stylebook.Proofs.Json.Reader

namespace Stylebook.Json

/-! ## Parts of a numeral -/

/-- The digits before the point: zero alone, or digits that do not start with it. -/
def IsWhole (ds : List Char) : Prop :=
  ds = ['0'] ∨ ∃ c ds', ds = c :: ds' ∧ c ≠ '0' ∧ ∀ d ∈ ds, d.isDigit = true

theorem wholePart_eq_ok_iff {s whole rest : List Char} :
    wholePart s = .ok (whole, rest) ↔
      IsWhole whole ∧ s = whole ++ rest ∧ HeadNot Char.isDigit rest := by
  constructor
  · intro h
    rcases s with _ | ⟨c, s⟩
    · cases h
    by_cases hzero : c = '0'
    · -- A zero is the whole part, and a digit behind it a fault.
      subst hzero
      rcases s with _ | ⟨d, s⟩
      · cases h
        exact ⟨.inl rfl, rfl, headNot_nil _⟩
      · cases hd : d.isDigit with
        | true => simp [wholePart, hd, failAt, fail] at h
        | false =>
          simp only [wholePart, if_true, hd] at h
          cases h
          exact ⟨.inl rfl, rfl, headNot_cons.2 hd⟩
    · cases hc : c.isDigit with
      | false => simp [wholePart, hzero, hc, failAt, fail] at h
      | true =>
        simp only [wholePart, hzero, if_false, hc, if_true] at h
        cases h
        obtain ⟨hds, hs, hrest⟩ := takeWhile_dropWhile_eq_iff.1 ⟨rfl, rfl⟩
        refine ⟨.inr ⟨c, _, rfl, hzero, ?_⟩, congrArg (c :: ·) hs, hrest⟩
        exact List.forall_mem_cons.2 ⟨hc, hds⟩
  · rintro ⟨rfl | ⟨c, ds, rfl, hzero, hds⟩, rfl, hrest⟩
    · cases rest with
      | nil => rfl
      | cons d rest => simp [wholePart, headNot_cons.1 hrest]
    · obtain ⟨hc, hds⟩ := List.forall_mem_cons.1 hds
      obtain ⟨htake, hdrop⟩ := takeWhile_dropWhile_eq_iff.2 ⟨hds, rfl, hrest⟩
      simp [wholePart, hzero, hc, htake, hdrop]

theorem digitRow_eq_ok_iff {s ds rest : List Char} :
    digitRow s = .ok (ds, rest) ↔
      ds ≠ [] ∧ (∀ d ∈ ds, d.isDigit = true) ∧ s = ds ++ rest ∧
        HeadNot Char.isDigit rest := by
  constructor
  · intro h
    rcases s with _ | ⟨c, s⟩
    · cases h
    cases hc : c.isDigit with
    | false => simp [digitRow, hc, failAt, fail] at h
    | true =>
      simp only [digitRow, hc, if_true] at h
      cases h
      exact ⟨by simp [hc], takeWhile_dropWhile_eq_iff.1 ⟨rfl, rfl⟩⟩
  · rintro ⟨hne, hds, rfl, hrest⟩
    obtain ⟨htake, hdrop⟩ := takeWhile_dropWhile_eq_iff.2 ⟨hds, rfl, hrest⟩
    cases ds with
    | nil => exact absurd rfl hne
    | cons d ds =>
      rw [List.cons_append] at htake hdrop ⊢
      rw [digitRow, if_pos (hds d (List.mem_cons_self ..)), htake, hdrop]

/-- No fraction is read where no point stands. -/
theorem fractionPart_eq_ok_iff {s fraction rest : List Char} :
    fractionPart s = .ok (fraction, rest) ↔
      (fraction = [] ∧ rest = s ∧ HeadNot (· == '.') s) ∨
      ∃ s', s = '.' :: s' ∧ digitRow s' = .ok (fraction, rest) := by
  constructor
  · intro h
    rw [fractionPart.eq_def] at h
    split at h
    · exact .inr ⟨_, rfl, h⟩
    · next hpoint =>
      cases h
      refine .inl ⟨rfl, rfl, ?_⟩
      intro c hc
      obtain ⟨s', rfl⟩ := List.head?_eq_some_iff.1 hc
      exact beq_false_of_ne fun hc => hpoint s' (by rw [hc])
  · rintro (⟨rfl, rfl, hhead⟩ | ⟨s', rfl, hrow⟩)
    · rw [fractionPart.eq_def]
      split
      · next s' => exact absurd (headNot_cons.1 hhead) (by decide)
      · rfl
    · exact hrow

/-- Whether a character is the letter of an exponent. -/
def isExponentLetter (c : Char) : Bool := c == 'e' || c == 'E'

/-- No exponent is read where its letter does not stand. -/
theorem exponentPart_eq_ok_iff {s rest : List Char} {exponent : Option (Bool × List Char)} :
    exponentPart s = .ok (exponent, rest) ↔
      (exponent = none ∧ rest = s ∧ HeadNot isExponentLetter s) ∨
      ∃ c s' ds, s = c :: s' ∧ isExponentLetter c = true ∧
        exponent = some ((exponentSign s').1, ds) ∧
        digitRow (exponentSign s').2 = .ok (ds, rest) := by
  have hletter : ∀ c, (c = 'e' ∨ c = 'E') ↔ isExponentLetter c = true := fun c => by
    rw [isExponentLetter, Bool.or_eq_true, beq_iff_eq, beq_iff_eq]
  cases s with
  | nil =>
    constructor
    · intro h
      cases h
      exact .inl ⟨rfl, rfl, headNot_nil _⟩
    · rintro (⟨rfl, rfl, -⟩ | ⟨c, s', ds, hs, -⟩)
      · rfl
      · cases hs
  | cons c s =>
    simp only [exponentPart, hletter]
    constructor
    · intro h
      split at h
      · next hc =>
        split at h
        · cases h
        · next hds =>
          cases h
          exact .inr ⟨c, s, _, rfl, hc, rfl, hds⟩
      · next hc =>
        cases h
        exact .inl ⟨rfl, rfl, headNot_cons.2 (Bool.not_eq_true _ ▸ hc)⟩
    · rintro (⟨rfl, rfl, hhead⟩ | ⟨c', s', ds, hs, hc, rfl, hds⟩)
      · rw [if_neg (Bool.not_eq_true _ ▸ headNot_cons.1 hhead)]
      · cases hs
        rw [if_pos hc, hds]

theorem numeral_eq_ok_iff {negative : Bool} {s rest : List Char} {n : Numeral} :
    numeral negative s = .ok (n, rest) ↔
      ∃ whole s₁ fraction s₂ exponent, wholePart s = .ok (whole, s₁) ∧
        fractionPart s₁ = .ok (fraction, s₂) ∧ exponentPart s₂ = .ok (exponent, rest) ∧
        n = ⟨negative, whole, fraction, exponent⟩ := by
  rw [numeral]
  constructor
  · intro h
    cases hw : wholePart s with
    | error f => rw [hw] at h; cases h
    | ok out₁ =>
      obtain ⟨whole, s₁⟩ := out₁
      cases hf : fractionPart s₁ with
      | error f => simp [hw, hf, bind, Except.bind] at h
      | ok out₂ =>
        obtain ⟨fraction, s₂⟩ := out₂
        cases he : exponentPart s₂ with
        | error f => simp [hw, hf, he, bind, Except.bind] at h
        | ok out₃ =>
          simp only [hw, hf, he, bind, Except.bind, pure, Except.pure] at h
          cases h
          exact ⟨_, _, _, _, _, rfl, hf, he, rfl⟩
  · rintro ⟨whole, s₁, fraction, s₂, exponent, hw, hf, he, rfl⟩
    simp [hw, hf, he, bind, Except.bind, pure, Except.pure]

theorem number_eq_ok_iff {negative : Bool} {s rest : List Char} {v : Value} :
    number negative s = .ok (v, rest) ↔
      ∃ n x, numeral negative s = .ok (n, rest) ∧ n.toNumber? = some x ∧ v = .number x := by
  rw [number]
  constructor
  · intro h
    split at h
    · cases h
    · split at h
      · next hn _ _ hx =>
        cases h
        exact ⟨_, _, hn, hx, rfl⟩
      · cases h
  · rintro ⟨n, x, hn, hx, rfl⟩
    simp [hn, hx]

/-! ## What follows a number -/

theorem isNumeric_of_isDigit (c : Char) (h : c.isDigit = true) : isNumeric c = true := by
  simp [isNumeric, h]

theorem isNumeric_of_isPoint (c : Char) (h : (c == '.') = true) : isNumeric c = true := by
  rw [beq_iff_eq] at h
  rw [h]
  rfl

theorem isNumeric_of_isExponentLetter (c : Char) (h : isExponentLetter c = true) :
    isNumeric c = true := by
  rw [isExponentLetter, Bool.or_eq_true, beq_iff_eq, beq_iff_eq] at h
  rcases h with rfl | rfl
  · rfl
  · rfl

theorem wholePart_takesFront : TakesFront wholePart := by
  intro s a rest h
  obtain ⟨-, rfl, -⟩ := wholePart_eq_ok_iff.1 h
  exact List.suffix_append _ _

theorem wholePart_extends : ExtendsAtStop wholePart := by
  intro s a rest t h hstop
  obtain ⟨hwhole, rfl, hrest⟩ := wholePart_eq_ok_iff.1 h
  have hend := hrest.append (hstop.imp_right fun ht => ht.of_imp isNumeric_of_isDigit)
  exact wholePart_eq_ok_iff.2 ⟨hwhole, List.append_assoc .., hend⟩

theorem digitRow_takesFront : TakesFront digitRow := by
  intro s a rest h
  obtain ⟨-, -, rfl, -⟩ := digitRow_eq_ok_iff.1 h
  exact List.suffix_append _ _

theorem digitRow_extends : ExtendsAtStop digitRow := by
  intro s a rest t h hstop
  obtain ⟨hne, hds, rfl, hrest⟩ := digitRow_eq_ok_iff.1 h
  have hend := hrest.append (hstop.imp_right fun ht => ht.of_imp isNumeric_of_isDigit)
  exact digitRow_eq_ok_iff.2 ⟨hne, hds, List.append_assoc .., hend⟩

theorem fractionPart_takesFront : TakesFront fractionPart := by
  intro s a rest h
  rcases fractionPart_eq_ok_iff.1 h with ⟨-, rfl, -⟩ | ⟨s', rfl, hrow⟩
  · exact List.suffix_refl _
  · exact (digitRow_takesFront hrow).trans (List.suffix_cons _ _)

theorem fractionPart_extends : ExtendsAtStop fractionPart := by
  intro s a rest t h hstop
  rcases fractionPart_eq_ok_iff.1 h with ⟨rfl, rfl, hhead⟩ | ⟨s', rfl, hrow⟩
  · have hend := hhead.append (hstop.imp_right fun ht => ht.of_imp isNumeric_of_isPoint)
    exact fractionPart_eq_ok_iff.2 (.inl ⟨rfl, rfl, hend⟩)
  · exact fractionPart_eq_ok_iff.2 (.inr ⟨s' ++ t, rfl, digitRow_extends hrow hstop⟩)

theorem exponentSign_suffix (s : List Char) : (exponentSign s).2 <:+ s := by
  unfold exponentSign
  split
  · exact List.suffix_cons _ _
  · exact List.suffix_cons _ _
  · exact List.suffix_refl _

theorem exponentSign_append {s : List Char} (t : List Char) (hs : s ≠ []) :
    exponentSign (s ++ t) = ((exponentSign s).1, (exponentSign s).2 ++ t) := by
  cases s with
  | nil => exact absurd rfl hs
  | cons c s =>
    by_cases hplus : c = '+'
    · simp [exponentSign, hplus]
    · by_cases hminus : c = '-'
      · simp [exponentSign, hminus]
      · simp [exponentSign, hplus, hminus]

theorem exponentPart_takesFront : TakesFront exponentPart := by
  intro s a rest h
  rcases exponentPart_eq_ok_iff.1 h with ⟨-, rfl, -⟩ | ⟨c, s', ds, rfl, -, -, hrow⟩
  · exact List.suffix_refl _
  · exact ((digitRow_takesFront hrow).trans (exponentSign_suffix s')).trans
      (List.suffix_cons _ _)

theorem exponentPart_extends : ExtendsAtStop exponentPart := by
  intro s a rest t h hstop
  rcases exponentPart_eq_ok_iff.1 h with ⟨rfl, rfl, hhead⟩ | ⟨c, s', ds, rfl, hc, rfl, hrow⟩
  · have hend := hhead.append (hstop.imp_right fun ht => ht.of_imp isNumeric_of_isExponentLetter)
    exact exponentPart_eq_ok_iff.2 (.inl ⟨rfl, rfl, hend⟩)
  · -- Digits were read behind the letter, so the sign is looked for in front of `t`.
    have hs' : s' ≠ [] := by
      rintro rfl
      cases hrow
    have hsign := exponentSign_append t hs'
    refine exponentPart_eq_ok_iff.2 (.inr ⟨c, s' ++ t, ds, rfl, hc, ?_, ?_⟩)
    · rw [hsign]
    · rw [hsign]
      exact digitRow_extends hrow hstop

theorem number_takesFront (negative : Bool) : TakesFront (number negative) := by
  intro s a rest h
  obtain ⟨n, x, hn, -, -⟩ := number_eq_ok_iff.1 h
  obtain ⟨whole, s₁, fraction, s₂, exponent, hw, hf, he, -⟩ := numeral_eq_ok_iff.1 hn
  exact ((exponentPart_takesFront he).trans (fractionPart_takesFront hf)).trans
    (wholePart_takesFront hw)

/-- A number does not depend on what follows it, if that stops it. -/
theorem number_extends (negative : Bool) : ExtendsAtStop (number negative) := by
  intro s a rest t h hstop
  obtain ⟨n, x, hn, hx, rfl⟩ := number_eq_ok_iff.1 h
  obtain ⟨whole, s₁, fraction, s₂, exponent, hw, hf, he, rfl⟩ := numeral_eq_ok_iff.1 hn
  -- What a part leaves over is not empty if what the next one leaves over is not.
  have hstop₂ : s₂ ≠ [] ∨ Stops t := hstop.imp_left fun hrest hs₂ =>
    hrest (List.suffix_nil.1 (hs₂ ▸ exponentPart_takesFront he))
  have hstop₁ : s₁ ≠ [] ∨ Stops t := hstop₂.imp_left fun hs₂ hs₁ =>
    hs₂ (List.suffix_nil.1 (hs₁ ▸ fractionPart_takesFront hf))
  refine number_eq_ok_iff.2 ⟨_, x, numeral_eq_ok_iff.2 ?_, hx, rfl⟩
  exact ⟨_, _, _, _, _, wholePart_extends hw hstop₁, fractionPart_extends hf hstop₂,
    exponentPart_extends he hstop, rfl⟩

/-! ## Digits alone -/

/-- The digits of a positive number do not start with zero. -/
theorem toDigits_eq_cons {n : Nat} (hn : 0 < n) :
    ∃ c ds, Nat.toDigits 10 n = c :: ds ∧ c ≠ '0' := by
  induction n using Nat.strongRecOn with
  | ind n ih =>
    by_cases hlt : n < 10
    · -- A single digit.
      have hdigit : ∀ m < 10, 0 < m → m.digitChar ≠ '0' := by decide
      exact ⟨n.digitChar, [], Nat.toDigits_of_lt_base hlt, hdigit n hlt hn⟩
    · -- The digits of a tenth, and one more at the end.
      obtain ⟨c, ds, hds, hc⟩ := ih (n / 10) (by omega) (by omega)
      refine ⟨c, ds ++ [(n % 10).digitChar], ?_, hc⟩
      rw [Nat.toDigits_of_base_le (by decide) (by omega), hds, List.cons_append]

theorem isDigit_toDigits (n : Nat) : ∀ c ∈ Nat.toDigits 10 n, c.isDigit = true :=
  fun _ hc => Nat.isDigit_of_mem_toDigits (by decide) (by decide) hc

theorem isWhole_toDigits (n : Nat) : IsWhole (Nat.toDigits 10 n) := by
  rcases Nat.eq_zero_or_pos n with rfl | hn
  · exact .inl (Nat.toDigits_zero 10)
  · obtain ⟨c, ds, hds, hc⟩ := toDigits_eq_cons hn
    exact .inr ⟨c, ds, hds, hc, isDigit_toDigits n⟩

theorem digitsValue_toDigits (n : Nat) : digitsValue (Nat.toDigits 10 n) = n :=
  Nat.ofDigitChars_ten_toDigits

/-- A numeral of digits alone, where it is written. -/
theorem numeral_whole (negative : Bool) {whole rest : List Char} (hwhole : IsWhole whole)
    (h : Stops rest) :
    numeral negative (whole ++ rest) = .ok (⟨negative, whole, [], none⟩, rest) := by
  have hdigit : HeadNot Char.isDigit rest := h.of_imp isNumeric_of_isDigit
  have hpoint : HeadNot (· == '.') rest := h.of_imp isNumeric_of_isPoint
  have hletter : HeadNot isExponentLetter rest := h.of_imp isNumeric_of_isExponentLetter
  exact numeral_eq_ok_iff.2 ⟨_, rest, [], rest, none,
    wholePart_eq_ok_iff.2 ⟨hwhole, rfl, hdigit⟩,
    fractionPart_eq_ok_iff.2 (.inl ⟨rfl, rfl, hpoint⟩),
    exponentPart_eq_ok_iff.2 (.inl ⟨rfl, rfl, hletter⟩), rfl⟩

end Stylebook.Json
