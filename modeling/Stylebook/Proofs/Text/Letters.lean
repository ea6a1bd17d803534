/-
  Stylebook.Proofs.Text.Letters

  Which texts become ASCII letters in lower case. Of all runs in the table two alone have
  images among the ASCII letters: the capitals, and the Kelvin sign, whose lower case is
  the k (`lowerRuns_letters`). The capital I with a dot becomes two characters, one of them
  no letter of ASCII, and the forms of the sigma are Greek. So a text becomes a word of
  ASCII letters if it spells that word letter by letter, and no other text does
  (`lower_eq_iff_spells`).
-/

import Mathlib.Data.List.Forall2
import Stylebook.Proofs.Text.Lowered
import Stylebook.Text.Blank

namespace Stylebook.Text

/-- The Kelvin sign, the one character outside of ASCII whose lower case is an ASCII
    letter. -/
def kelvinSign : Char := '\u212A'

/-- A character stands for a small ASCII letter: it is that letter or its capital, or the
    Kelvin sign in place of a k. -/
def SpellsLetter (letter c : Char) : Prop :=
  c = letter ∨ c = letter.toUpper ∨ letter = 'k' ∧ c = kelvinSign

instance (letter c : Char) : Decidable (SpellsLetter letter c) :=
  inferInstanceAs (Decidable (_ ∨ _))

/-- A text spells a word letter by letter. -/
def Spells (word cs : List Char) : Prop := List.Forall₂ SpellsLetter word cs

/-! ## Single characters -/

/-- The capitals and the Kelvin sign become ASCII letters; what other runs map to lies
    behind the letters. -/
theorem lowerRuns_letters : ∀ run ∈ lowerRuns,
    run = ⟨0x41, 0x5A, 1, 0x61⟩ ∨ run = ⟨0x212A, 0x212A, 1, 0x6B⟩ ∨ 0x7A < run.image := by
  decide +kernel

/-- A small letter is left alone, and its capital becomes the letter. -/
theorem lowerChar_letters : ∀ n < 26,
    (Char.ofNat (0x61 + n)).toNat = 0x61 + n ∧
      (Char.ofNat (0x61 + n)).toUpper = Char.ofNat (0x41 + n) ∧
        lowerChar (Char.ofNat (0x61 + n)) = [Char.ofNat (0x61 + n)] ∧
          lowerChar (Char.ofNat (0x41 + n)) = [Char.ofNat (0x61 + n)] := by
  decide +kernel

/-- The small letters by their number in the alphabet. -/
theorem exists_eq_letter {a : Char} (h : a.isLower = true) :
    ∃ n < 26, a = Char.ofNat (0x61 + n) := by
  delta Char.isLower at h
  rw [Bool.and_eq_true, decide_eq_true_eq, decide_eq_true_eq] at h
  have hbounds : 0x61 ≤ a.toNat ∧ a.toNat ≤ 0x7A := h
  refine ⟨a.toNat - 0x61, by omega, ?_⟩
  rw [show 0x61 + (a.toNat - 0x61) = a.toNat by omega, Char.ofNat_toNat]

/-- A code point that the table maps to a letter is that of its capital, or of the Kelvin
    sign. -/
theorem capital_or_kelvin {c n : Nat} (hn : n < 26)
    (h : caseImage? lowerRuns c = some (0x61 + n)) :
    c = 0x41 + n ∨ n = 10 ∧ c = kelvinSign.toNat := by
  obtain ⟨run, hrun, himage⟩ := exists_run_of_caseImage? h
  obtain ⟨⟨hfirst, hlast, -⟩, hshift⟩ := CaseRun.image?_eq_some_iff.1 himage
  have hkelvin : kelvinSign.toNat = 0x212A := rfl
  obtain rfl | rfl | hbehind := lowerRuns_letters run hrun
  · left
    simp only at hfirst hshift
    omega
  · right
    simp only at hfirst hlast hshift
    omega
  · omega

/-- The characters that become a small letter. -/
theorem lowerChar_eq_letter_iff {a c : Char} (ha : a.isLower = true) :
    lowerChar c = [a] ↔ SpellsLetter a c := by
  obtain ⟨n, hn, rfl⟩ := exists_eq_letter ha
  obtain ⟨hletter, hupper, hsmall, hcapital⟩ := lowerChar_letters n hn
  constructor
  · intro h
    by_cases hdotted : c = 'İ'
    · -- Its lower case is longer than one character.
      rw [hdotted, lowerChar, if_pos rfl] at h
      cases (List.cons.inj h).2
    · rw [lowerChar, if_neg hdotted] at h
      split at h
      · next image himage =>
        have htoNat := congrArg Char.toNat (List.singleton_inj.1 h)
        rw [toNat_image himage, hletter] at htoNat
        subst htoNat
        obtain hcode | ⟨rfl, hcode⟩ := capital_or_kelvin hn himage
        · rw [SpellsLetter, hupper, ← hcode, Char.ofNat_toNat]
          exact .inr (.inl rfl)
        · exact .inr (.inr ⟨rfl, Char.toNat_inj.1 hcode⟩)
      · exact .inl (List.singleton_inj.1 h)
  · rintro (rfl | rfl | ⟨hk, rfl⟩)
    · exact hsmall
    · rw [hupper]
      exact hcapital
    · rw [hk]
      decide +kernel

/-- What spells a letter is no white space, and but for the Kelvin sign it is a letter. -/
theorem SpellsLetter.blank_and_alpha {a c : Char} (ha : a.isLower = true)
    (h : SpellsLetter a c) :
    isBlank c = false ∧ (c.isAlpha = true ∨ a = 'k' ∧ c = kelvinSign) := by
  have hsmall : ∀ n < 26, isBlank (Char.ofNat (0x61 + n)) = false ∧
      (Char.ofNat (0x61 + n)).isAlpha = true := by
    decide +kernel
  have hcapital : ∀ n < 26, isBlank (Char.ofNat (0x61 + n)).toUpper = false ∧
      (Char.ofNat (0x61 + n)).toUpper.isAlpha = true := by
    decide +kernel
  obtain ⟨n, hn, rfl⟩ := exists_eq_letter ha
  rcases h with rfl | rfl | hkelvin
  · exact (hsmall n hn).imp_right .inl
  · exact (hcapital n hn).imp_right .inl
  · have hblank : isBlank kelvinSign = false := by decide +kernel
    exact ⟨hkelvin.2 ▸ hblank, .inr hkelvin⟩

/-- No character becomes a small letter together with others. -/
theorem exists_letter_of_lowerChar {c : Char} (h : ∀ a ∈ lowerChar c, a.isLower = true) :
    ∃ a, lowerChar c = [a] := by
  by_cases hdotted : c = 'İ'
  · subst hdotted
    exact absurd (h '\u0307' (by decide)) (by decide)
  · rw [lowerChar, if_neg hdotted]
    split
    · exact ⟨_, rfl⟩
    · exact ⟨_, rfl⟩

theorem isLower_lowerSigma (before after : List Char) :
    (lowerSigma before after).isLower = false := by
  rw [lowerSigma]
  split
  · decide
  · decide

/-! ## Texts -/

/-- A word of small letters is the lower case of the texts that spell it. -/
theorem lowerAfter_eq_iff_spells {word before cs : List Char}
    (hword : ∀ a ∈ word, a.isLower = true) :
    lowerAfter before cs = word ↔ Spells word cs := by
  induction cs generalizing before word with
  | nil => rw [lowerAfter, Spells, List.forall₂_nil_right_iff, eq_comm]
  | cons c cs ih =>
    rw [lowerAfter, Spells, List.forall₂_cons_right_iff]
    constructor
    · rintro rfl
      rw [List.forall_mem_append] at hword
      obtain ⟨hc, hrest⟩ := hword
      split at hc
      · -- Neither form of the sigma is a letter of ASCII.
        have hsigma := hc _ List.mem_cons_self
        rw [isLower_lowerSigma] at hsigma
        cases hsigma
      · next hc' =>
        obtain ⟨a, ha⟩ := exists_letter_of_lowerChar hc
        rw [ha] at hc
        refine ⟨a, _, (lowerChar_eq_letter_iff (hc a List.mem_cons_self)).1 ha,
          (ih hrest).1 rfl, ?_⟩
        rw [if_neg hc', ha]
        rfl
    · rintro ⟨a, rest, ha, hrest, rfl⟩
      obtain ⟨hletter, hletters⟩ := List.forall_mem_cons.1 hword
      have hlower := (lowerChar_eq_letter_iff hletter).2 ha
      have hc : c ≠ capitalSigma := by
        rintro rfl
        have hsigma : lowerChar capitalSigma = ['σ'] := by decide +kernel
        rw [hsigma, List.singleton_inj] at hlower
        rw [← hlower] at hletter
        exact absurd hletter (by decide)
      rw [if_neg hc, hlower, (ih hletters).2 hrest]
      rfl

/-- Lower case of a text is a word of small letters exactly if the text spells the word. -/
theorem lower_eq_iff_spells {word cs : List Char} (hword : ∀ a ∈ word, a.isLower = true) :
    lower cs = word ↔ Spells word cs :=
  lowerAfter_eq_iff_spells hword

end Stylebook.Text
