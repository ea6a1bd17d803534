/-
  Stylebook.Proofs.Json.Quotation

  Reading strings. A string ends at its closing quote, so nothing behind it
  matters, and a string that was written with escapes reads back as it was.
-/

import Stylebook.Json.Quotation
import Stylebook.Proofs.Json.Reader

namespace Stylebook.Json

/-! ## Escapes -/

/-- A text has a byte at least for each character. -/
theorem utf8_length_ge (cs : List Char) : cs.length ≤ (utf8 cs).length := by
  induction cs with
  | nil => exact Nat.le_refl 0
  | cons c cs ih =>
    have hpos := Char.utf8Size_pos c
    simp only [utf8, List.flatMap_cons, List.length_append, String.length_utf8EncodeChar,
      List.length_cons] at ih ⊢
    omega

theorem hexCode_eq_ok_iff {s rest : List Char} {n : Nat} :
    hexCode s = .ok (n, rest) ↔
      ∃ a b c d, s = a :: b :: c :: d :: rest ∧ hexValue? a b c d = some n := by
  constructor
  · intro h
    rw [hexCode.eq_def] at h
    split at h
    · cases h
    · split at h
      · split at h
        · next hn =>
          cases h
          exact ⟨_, _, _, _, rfl, hn⟩
        · cases h
      · cases h
  · rintro ⟨a, b, c, d, rfl, hn⟩
    -- The first test counts bytes, and there are four at least.
    have hlen := utf8_length_ge [a, b, c, d]
    rw [hexCode.eq_def, if_neg (by simpa using hlen)]
    simp [hn]

theorem secondHalf_eq_ok_iff {first : Nat} {s rest : List Char} {c : Char} :
    secondHalf first s = .ok (c, rest) ↔
      ∃ s' n, s = '\\' :: 'u' :: s' ∧ hexCode s' = .ok (n, rest) ∧ isTrailing n = true ∧
        c = Char.ofNat ((first - 0xD800) * 0x400 + (n - 0xDC00) + 0x10000) := by
  constructor
  · intro h
    rw [secondHalf.eq_def] at h
    split at h
    · cases h
    · cases h
    · split at h
      · cases h
      · next hn =>
        split at h
        · next htrail =>
          obtain ⟨hc, hrest⟩ := Prod.mk.inj (Except.ok.inj h)
          exact ⟨_, _, rfl, hrest ▸ hn, htrail, hc.symm⟩
        · cases h
    · cases h
    · cases h
  · rintro ⟨s', n, rfl, hn, htrail, hc⟩
    simp only [secondHalf, hn, htrail, if_true, hc]

theorem numberedEscape_eq_ok_iff {s rest : List Char} {c : Char} :
    numberedEscape s = .ok (c, rest) ↔
      ∃ n s', hexCode s = .ok (n, s') ∧ isTrailing n = false ∧
        ((isLeading n = true ∧ secondHalf n s' = .ok (c, rest)) ∨
          (isLeading n = false ∧ c = Char.ofNat n ∧ rest = s')) := by
  rw [numberedEscape]
  constructor
  · intro h
    split at h
    · cases h
    next n s' hn =>
    split at h
    · cases h
    next htrail =>
    rw [Bool.not_eq_true] at htrail
    split at h
    · next hlead => exact ⟨n, s', hn, htrail, .inl ⟨hlead, h⟩⟩
    · next hlead =>
      rw [Bool.not_eq_true] at hlead
      cases h
      exact ⟨n, rest, hn, htrail, .inr ⟨hlead, rfl, rfl⟩⟩
  · rintro ⟨n, s', hn, htrail, ⟨hlead, hsecond⟩ | ⟨hlead, rfl, rfl⟩⟩
    · simp only [hn, htrail, hlead, Bool.false_eq_true, if_false, if_true, hsecond]
    · simp only [hn, htrail, hlead, Bool.false_eq_true, if_false]

theorem numberedEscape_takesFront : TakesFront numberedEscape := by
  intro s a rest h
  obtain ⟨n, s', hn, -, hrest⟩ := numberedEscape_eq_ok_iff.1 h
  obtain ⟨a₁, b₁, c₁, d₁, rfl, -⟩ := hexCode_eq_ok_iff.1 hn
  have hs' : s' <:+ a₁ :: b₁ :: c₁ :: d₁ :: s' := List.suffix_append [a₁, b₁, c₁, d₁] s'
  rcases hrest with ⟨-, hsecond⟩ | ⟨-, -, rfl⟩
  · obtain ⟨s'', m, rfl, hm, -⟩ := secondHalf_eq_ok_iff.1 hsecond
    obtain ⟨a₂, b₂, c₂, d₂, rfl, -⟩ := hexCode_eq_ok_iff.1 hm
    exact (List.suffix_append ['\\', 'u', a₂, b₂, c₂, d₂] rest).trans hs'
  · exact hs'

theorem hexCode_extends : Extends hexCode := by
  intro s n rest t h
  obtain ⟨a, b, c, d, rfl, hn⟩ := hexCode_eq_ok_iff.1 h
  exact hexCode_eq_ok_iff.2 ⟨a, b, c, d, rfl, hn⟩

theorem numberedEscape_extends : Extends numberedEscape := by
  intro s c rest t h
  obtain ⟨n, s', hn, htrail, hrest⟩ := numberedEscape_eq_ok_iff.1 h
  refine numberedEscape_eq_ok_iff.2 ⟨n, s' ++ t, hexCode_extends t hn, htrail, ?_⟩
  rcases hrest with ⟨hlead, hsecond⟩ | ⟨hlead, hc, rfl⟩
  · obtain ⟨s'', m, rfl, hm, hmtrail, hc⟩ := secondHalf_eq_ok_iff.1 hsecond
    exact .inl ⟨hlead, secondHalf_eq_ok_iff.2
      ⟨s'' ++ t, m, rfl, hexCode_extends t hm, hmtrail, hc⟩⟩
  · exact .inr ⟨hlead, hc, rfl⟩

theorem escape_takesFront : TakesFront escape := by
  intro s a rest h
  rw [escape.eq_def] at h
  split at h
  -- All escapes but the numbered ones are one character.
  case h_10 => exact (numberedEscape_takesFront h).trans (List.suffix_cons _ _)
  all_goals cases h
  all_goals exact List.suffix_cons _ _

theorem escape_extends : Extends escape := by
  intro s a rest t h
  rw [escape.eq_def] at h
  split at h
  case h_10 => exact numberedEscape_extends t h
  all_goals cases h
  all_goals rfl

/-! ## Strings -/

theorem quotedStep_eq_ok_iff {s rest : List Char} {a : Option Char} :
    quotedStep s = .ok (a, rest) ↔
      (a = none ∧ s = '"' :: rest) ∨
      (∃ e s', a = some e ∧ s = '\\' :: s' ∧ escape s' = .ok (e, rest)) ∨
      ∃ c, a = some c ∧ s = c :: rest ∧ c ≠ '"' ∧ c ≠ '\\' ∧ 0x20 ≤ c.toNat := by
  constructor
  · intro h
    rw [quotedStep.eq_def] at h
    rcases s with _ | ⟨c, s⟩
    · cases h
    by_cases hquote : c = '"'
    · simp only [hquote, if_true] at h
      cases h
      exact .inl ⟨rfl, by rw [hquote]⟩
    by_cases hslash : c = '\\'
    · simp only [if_neg hquote, if_pos hslash] at h
      split at h
      · cases h
      · next he =>
        cases h
        exact .inr (.inl ⟨_, _, rfl, by rw [hslash], he⟩)
    · by_cases hlow : c.toNat < 0x20
      · simp [hquote, hslash, hlow, failAt, fail] at h
      · simp only [hquote, if_false, hslash, hlow] at h
        cases h
        exact .inr (.inr ⟨c, rfl, rfl, hquote, hslash, by omega⟩)
  · rintro (⟨rfl, rfl⟩ | ⟨e, s', rfl, rfl, he⟩ | ⟨c, rfl, rfl, hquote, hslash, hlow⟩)
    · rfl
    · simp [quotedStep, he]
    · simp [quotedStep, hquote, hslash, Nat.not_lt.2 hlow]

theorem quotedStep_shortens : Shortens quotedStep := by
  intro s a rest h
  rcases quotedStep_eq_ok_iff.1 h with ⟨h', -⟩ | ⟨e, s', -, rfl, he⟩ | ⟨c, -, rfl, -⟩
  · cases h'
  · have hle := (escape_takesFront he).length_le
    simp only [List.length_cons]
    omega
  · simp

theorem quotedStep_takesFront : TakesFront quotedStep := by
  intro s a rest h
  rcases quotedStep_eq_ok_iff.1 h with ⟨-, rfl⟩ | ⟨e, s', -, rfl, he⟩ | ⟨c, -, rfl, -⟩
  · exact List.suffix_cons _ _
  · exact (escape_takesFront he).trans (List.suffix_cons _ _)
  · exact List.suffix_cons _ _

theorem quotedStep_extends : Extends quotedStep := by
  intro s a rest t h
  refine quotedStep_eq_ok_iff.2 ?_
  rcases quotedStep_eq_ok_iff.1 h with ⟨rfl, rfl⟩ | ⟨e, s', rfl, rfl, he⟩ | ⟨c, rfl, rfl, hc⟩
  · exact .inl ⟨rfl, rfl⟩
  · exact .inr (.inl ⟨e, s' ++ t, rfl, rfl, escape_extends t he⟩)
  · exact .inr (.inr ⟨c, rfl, rfl, hc⟩)

theorem quoted_eq_ok_iff {s rest : List Char} {text : String} :
    quoted s = .ok (text, rest) ↔ Repeats quotedStep s text.toList rest := by
  rw [← many_eq_ok_iff quotedStep_shortens, quoted]
  cases many quotedStep s with
  | error f => simp
  | ok out =>
    obtain ⟨cs, rest'⟩ := out
    simp only [Except.ok.injEq, Prod.mk.injEq]
    rw [← String.toList_inj, String.toList_ofList]

theorem quoted_takesFront : TakesFront quoted := fun h =>
  (quoted_eq_ok_iff.1 h).suffix quotedStep_takesFront

theorem quoted_extends : Extends quoted := by
  intro s a rest t h
  refine quoted_eq_ok_iff.2 ((quoted_eq_ok_iff.1 h).append t (fun x hx => ?_) ?_)
  · cases hx
  · exact fun hs _ => quotedStep_extends t hs

/-! ## Written strings -/

/-- Two hexadecimal digits behind two zeros read back as the code of a control
    character. -/
theorem hexValue?_control :
    ∀ n < 0x20, hexValue? '0' '0' (Nat.digitChar (n / 16)) (Nat.digitChar (n % 16)) = some n := by
  decide

theorem numberedEscape_control {c : Char} (hc : c.toNat < 0x20) (rest : List Char) :
    numberedEscape
      ('0' :: '0' :: Nat.digitChar (c.toNat / 16) :: Nat.digitChar (c.toNat % 16) :: rest)
      = .ok (c, rest) := by
  refine numberedEscape_eq_ok_iff.2 ⟨c.toNat, rest, ?_, ?_, .inr ⟨?_, ?_, rfl⟩⟩
  · exact hexCode_eq_ok_iff.2 ⟨_, _, _, _, rfl, hexValue?_control _ hc⟩
  · simp only [isTrailing, Bool.and_eq_false_iff, decide_eq_false_iff_not]
    omega
  · simp only [isLeading, Bool.and_eq_false_iff, decide_eq_false_iff_not]
    omega
  · exact (Char.ofNat_toNat c).symm

/-- An escaped character reads back as the character. -/
theorem quotedStep_escapeChar (c : Char) (rest : List Char) :
    quotedStep (escapeChar c ++ rest) = .ok (some c, rest) := by
  have hescape : ∀ {e s'}, escape s' = .ok (e, rest) →
      quotedStep ('\\' :: s') = .ok (some e, rest) := fun he =>
    quotedStep_eq_ok_iff.2 (.inr (.inl ⟨_, _, rfl, rfl, he⟩))
  unfold escapeChar
  -- The characters with an escape of their own.
  by_cases hquote : c = '"'
  · subst hquote; exact hescape rfl
  by_cases hslash : c = '\\'
  · subst hslash; exact hescape rfl
  by_cases hb : c = '\x08'
  · subst hb; exact hescape rfl
  by_cases hf : c = '\x0c'
  · subst hf; exact hescape rfl
  by_cases hn : c = '\n'
  · subst hn; exact hescape rfl
  by_cases hr : c = '\r'
  · subst hr; exact hescape rfl
  by_cases ht : c = '\t'
  · subst ht; exact hescape rfl
  rw [if_neg hquote, if_neg hslash, if_neg hb, if_neg hf, if_neg hn, if_neg hr, if_neg ht]
  -- The other control characters, by number; the rest stands for itself.
  by_cases hlow : c.toNat < 0x20
  · rw [if_pos hlow]
    exact hescape (numberedEscape_control hlow rest)
  · rw [if_neg hlow]
    exact quotedStep_eq_ok_iff.2 (.inr (.inr ⟨c, rfl, rfl, hquote, hslash, by omega⟩))

/-- A string reads back as it was written, and what follows is left over. -/
theorem quoted_written (s : String) (rest : List Char) :
    quoted (s.toList.flatMap escapeChar ++ '"' :: rest) = .ok (s, rest) := by
  refine quoted_eq_ok_iff.2 ?_
  induction s.toList with
  | nil => exact .stop (quotedStep_eq_ok_iff.2 (.inl ⟨rfl, rfl⟩))
  | cons c cs ih =>
    rw [List.flatMap_cons, List.append_assoc]
    exact .next (quotedStep_escapeChar c _) ih

end Stylebook.Json
