/-
  Stylebook.Proofs.Json.Reader

  How a reader treats the text behind what it reads. A reader takes its result
  off the front of the text (`TakesFront`), and it does not look at what follows
  (`Extends`). Numbers are the one exception: a digit behind a number would have
  been part of it, so there the text that follows has to stop it
  (`ExtendsAtStop`).

  The repetition of a step is described without its budget, by the relation
  `Repeats`; `many_eq_ok_iff` says that it is what `many` computes.
-/

import Mathlib.Data.List.TakeWhile
import Stylebook.Json.Scan

namespace Stylebook.Json

variable {α : Type}

/-! ## Readers and what follows -/

/-- What a reader leaves over is the end of the text. -/
def TakesFront (r : Reader α) : Prop :=
  ∀ {s a rest}, r s = .ok (a, rest) → rest <:+ s

/-- A reader that succeeds does so whatever follows the text. -/
def Extends (r : Reader α) : Prop :=
  ∀ {s a rest} (t), r s = .ok (a, rest) → r (s ++ t) = .ok (a, rest ++ t)

/-- The characters that numbers are spelled with. -/
def isNumeric (c : Char) : Bool :=
  c.isDigit || c == '.' || c == 'e' || c == 'E' || c == '+' || c == '-'

/-- A text that does not start with a character of a class. -/
def HeadNot (p : Char → Bool) (t : List Char) : Prop := ∀ c ∈ t.head?, p c = false

/-- A text that cannot go on with a number. -/
def Stops (t : List Char) : Prop := HeadNot isNumeric t

/-- A reader that succeeds does so too when more text follows, if it had seen the end
    of what it read or the new text stops a number. -/
def ExtendsAtStop (r : Reader α) : Prop :=
  ∀ {s a rest t}, r s = .ok (a, rest) → rest ≠ [] ∨ Stops t → r (s ++ t) = .ok (a, rest ++ t)

theorem headNot_nil (p : Char → Bool) : HeadNot p [] := by simp [HeadNot]

@[simp] theorem headNot_cons {p : Char → Bool} {c : Char} {t : List Char} :
    HeadNot p (c :: t) ↔ p c = false := by
  simp [HeadNot]

theorem HeadNot.append {p : Char → Bool} {s t : List Char} (hs : HeadNot p s)
    (h : s ≠ [] ∨ HeadNot p t) : HeadNot p (s ++ t) := by
  cases s with
  | nil => simpa using h
  | cons c s => simpa using hs

theorem HeadNot.of_imp {p q : Char → Bool} {t : List Char} (h : HeadNot p t)
    (hpq : ∀ c, q c = true → p c = true) : HeadNot q t := by
  intro c hc
  have hp := h c hc
  cases hq : q c with
  | false => rfl
  | true => rw [hpq c hq] at hp; cases hp

/-- The longest front of a text inside a class of characters, said without cutting. -/
theorem takeWhile_dropWhile_eq_iff {p : Char → Bool} {s front rest : List Char} :
    (s.takeWhile p = front ∧ s.dropWhile p = rest) ↔
      (∀ c ∈ front, p c = true) ∧ s = front ++ rest ∧ HeadNot p rest := by
  constructor
  · rintro ⟨rfl, rfl⟩
    refine ⟨fun c hc => List.mem_takeWhile_imp hc, List.takeWhile_append_dropWhile.symm, ?_⟩
    intro c hc
    have hhead := List.head?_dropWhile_not p s
    rw [hc] at hhead
    simpa using hhead
  · rintro ⟨hfront, rfl, hrest⟩
    -- Past `front` neither goes on, since `rest` does not start inside the class.
    rw [List.takeWhile_append_of_pos hfront, List.dropWhile_append_of_pos hfront]
    cases rest with
    | nil => simp
    | cons c rest => simp [headNot_cons.1 hrest]

/-! ## Blank space -/

theorem skipGap_suffix (s : List Char) : skipGap s <:+ s := List.dropWhile_suffix _

theorem skipGap_cons {c : Char} {s : List Char} (h : isGap c = false) :
    skipGap (c :: s) = c :: s := by
  simp [skipGap, h]

theorem isGap_of_skipGap {c : Char} {s rest : List Char} (h : skipGap s = c :: rest) :
    isGap c = false := by
  have hhead := List.head?_dropWhile_not isGap s
  rw [← skipGap, h] at hhead
  simpa using hhead

theorem skipGap_skipGap (s : List Char) : skipGap (skipGap s) = skipGap s := by
  cases h : skipGap s with
  | nil => rfl
  | cons c rest => exact skipGap_cons (isGap_of_skipGap h)

/-- Blank space before more text is skipped with the text. -/
theorem skipGap_append {gap s : List Char} (h : ∀ c ∈ gap, isGap c = true) :
    skipGap (gap ++ s) = skipGap s := by
  rw [skipGap, List.dropWhile_append_of_pos h, skipGap]

/-- What the first token is does not depend on the text behind it. -/
theorem skipGap_append_of_cons {c : Char} {s rest : List Char} (t : List Char)
    (h : skipGap s = c :: rest) : skipGap (s ++ t) = c :: (rest ++ t) := by
  rw [skipGap, List.dropWhile_append, ← skipGap, h]
  simp

theorem skipGap_eq_nil_iff {s : List Char} : skipGap s = [] ↔ ∀ c ∈ s, isGap c = true := by
  rw [skipGap, List.dropWhile_eq_nil_iff]

/-! ## Words -/

/-- A word is read exactly where it stands. -/
theorem word_eq_ok_iff {v v' : Value} {ws s rest : List Char} :
    word v ws s = .ok (v', rest) ↔ v' = v ∧ s = ws ++ rest := by
  induction ws generalizing s with
  | nil => simp [word, eq_comm]
  | cons w ws ih =>
    cases s with
    | nil => simp [word, failAtEnd, fail]
    | cons c s =>
      by_cases hc : c = w
      · simp [word, hc, ih]
      · simp [word, hc, failAt, fail]

/-! ## Repetition -/

/-- A step repeated until it reads the end: the items it reads, and what is left. -/
inductive Repeats (step : Reader (Option α)) : List Char → List α → List Char → Prop where
  | stop {s rest} : step s = .ok (none, rest) → Repeats step s [] rest
  | next {s a mid as rest} :
      step s = .ok (some a, mid) → Repeats step mid as rest → Repeats step s (a :: as) rest

/-- With a budget, a repetition succeeds as long as there are no more items. -/
theorem repeatStep_eq_ok_iff {step : Reader (Option α)} {budget s rest : List Char}
    {as : List α} :
    repeatStep step budget s = .ok (as, rest) ↔
      Repeats step s as rest ∧ as.length ≤ budget.length := by
  constructor
  · -- On the budget: without one, only the end can be read.
    intro h
    induction budget generalizing s as with
    | nil =>
      rw [repeatStep] at h
      split at h
      · cases h
      · next hs =>
        cases h
        exact ⟨.stop hs, Nat.le_refl _⟩
      · cases h
    | cons b budget ih =>
      rw [repeatStep] at h
      split at h
      · cases h
      · next hs =>
        cases h
        exact ⟨.stop hs, Nat.zero_le _⟩
      · next hs =>
        split at h
        · cases h
        · next hrest =>
          cases h
          obtain ⟨hr, hlen⟩ := ih hrest
          exact ⟨.next hs hr, Nat.succ_le_succ hlen⟩
  · -- On the items, with a budget that is at least as long.
    rintro ⟨h, hlen⟩
    induction h generalizing budget with
    | stop hs => cases budget <;> simp [repeatStep, hs]
    | next hs _ ih =>
      cases budget with
      | nil => simp at hlen
      | cons b budget =>
        simp only [List.length_cons, Nat.add_le_add_iff_right] at hlen
        simp [repeatStep, hs, ih hlen]

/-- A step that takes something off the text for each item. -/
def Shortens (step : Reader (Option α)) : Prop :=
  ∀ {s a rest}, step s = .ok (some a, rest) → rest.length < s.length

theorem Repeats.length_le {step : Reader (Option α)} (hstep : Shortens step)
    {s rest : List Char} {as : List α} (h : Repeats step s as rest) :
    as.length ≤ s.length := by
  induction h with
  | stop => exact Nat.zero_le _
  | next hs _ ih =>
    have hlt := hstep hs
    simp only [List.length_cons]
    omega

/-- The budget of `many` always suffices. -/
theorem many_eq_ok_iff {step : Reader (Option α)} (hstep : Shortens step)
    {s rest : List Char} {as : List α} :
    many step s = .ok (as, rest) ↔ Repeats step s as rest := by
  rw [many, repeatStep_eq_ok_iff]
  exact ⟨fun h => h.1, fun h => ⟨h, h.length_le hstep⟩⟩

theorem Repeats.suffix {step : Reader (Option α)} (hstep : TakesFront step)
    {s rest : List Char} {as : List α} (h : Repeats step s as rest) : rest <:+ s := by
  induction h with
  | stop hs => exact hstep hs
  | next hs _ ih => exact ih.trans (hstep hs)

theorem Repeats.ne_nil {step : Reader (Option α)} (hnil : ∀ x, step [] ≠ .ok x)
    {s rest : List Char} {as : List α} (h : Repeats step s as rest) : s ≠ [] := by
  rintro rfl
  cases h with
  | stop hs => exact hnil _ hs
  | next hs _ => exact hnil _ hs

/-- A repetition does not look behind its end, if each step sees the end of its item
    when another step follows. -/
theorem Repeats.append {step : Reader (Option α)} {s rest : List Char} {as : List α}
    (t : List Char) (hnil : ∀ x, step [] ≠ .ok x)
    (hstep : ∀ {s a rest}, step s = .ok (a, rest) → a = none ∨ rest ≠ [] →
      step (s ++ t) = .ok (a, rest ++ t))
    (h : Repeats step s as rest) : Repeats step (s ++ t) as (rest ++ t) := by
  induction h with
  | stop hs => exact .stop (hstep hs (.inl rfl))
  | next hs hr ih => exact .next (hstep hs (.inr (hr.ne_nil hnil))) ih

end Stylebook.Json
