/-
  Stylebook.Proofs.Text.Splitting

  Cutting a text at a piece of it, at the first place or at the last. Either cut is said
  without the search (`splitAtFirst?_eq_some_iff`, `splitAtLast?_eq_some_iff`): the text is
  what stands before the piece, the piece, and what stands behind it, and no other place of
  the piece lies further to the front, or to the end. Places may overlap.

  What stands behind the line feeds of a text (`BreaksBefore`) decides how its lines start,
  and can be told part by part.
-/

import Stylebook.Text.Containment

namespace Stylebook.Text

/-! ## Cuts -/

/-- What stands before the first place of a piece, and what stands behind it. -/
def splitAtFirst? (piece : List Char) : List Char → Option (List Char × List Char)
  | [] => if piece = [] then some ([], []) else none
  | c :: rest =>
    if piece.isPrefixOf (c :: rest) then some ([], (c :: rest).drop piece.length)
    else (splitAtFirst? piece rest).map fun cut => (c :: cut.1, cut.2)

/-- What stands before the last place of a piece, and what stands behind it: in the reversed
    text it is the first place. -/
def splitAtLast? (piece text : List Char) : Option (List Char × List Char) :=
  (splitAtFirst? piece.reverse text.reverse).map fun cut => (cut.2.reverse, cut.1.reverse)

/-- The first cut leaves the least in front of the piece. -/
theorem splitAtFirst?_eq_some_iff {piece text before after : List Char} :
    splitAtFirst? piece text = some (before, after) ↔
      text = before ++ piece ++ after ∧
        ∀ before' after', text = before' ++ piece ++ after' → before.length ≤ before'.length := by
  induction text generalizing before with
  | nil =>
    rw [splitAtFirst?]
    split
    · next hpiece => simp +contextual [hpiece, eq_comm]
    · next hpiece => simp [hpiece]
  | cons c rest ih =>
    rw [splitAtFirst?]
    split
    · next hfront =>
      -- The piece stands in front, so nothing stands before it.
      obtain ⟨tail, htail⟩ := List.isPrefixOf_iff_prefix.1 hfront
      rw [← htail, List.drop_left]
      constructor
      · intro h
        cases h
        exact ⟨rfl, fun _ _ _ => Nat.zero_le _⟩
      · rintro ⟨htext, hfirst⟩
        obtain rfl : before = [] :=
          List.eq_nil_of_length_eq_zero (Nat.le_zero.1 (hfirst [] tail rfl))
        rw [List.append_cancel_left htext]
    · next hfront =>
      have hne (before' after' : List Char) (h : c :: rest = before' ++ piece ++ after') :
          ∃ front, before' = c :: front ∧ rest = front ++ piece ++ after' := by
        cases before' with
        | nil => exact absurd (List.isPrefixOf_iff_prefix.2 ⟨after', h.symm⟩) hfront
        | cons d front =>
          obtain ⟨rfl, hrest⟩ := List.cons.inj h
          exact ⟨front, rfl, hrest⟩
      rw [Option.map_eq_some_iff]
      constructor
      · rintro ⟨⟨front, after⟩, hcut, h⟩
        cases h
        obtain ⟨hrest, hfirst⟩ := ih.1 hcut
        refine ⟨congrArg (c :: ·) hrest, fun before' after' h => ?_⟩
        obtain ⟨front', rfl, hrest'⟩ := hne before' after' h
        exact Nat.succ_le_succ (hfirst front' after' hrest')
      · rintro ⟨htext, hfirst⟩
        obtain ⟨front, rfl, hrest⟩ := hne before after htext
        refine ⟨(front, after), ih.2 ⟨hrest, fun before' after' h => ?_⟩, rfl⟩
        exact Nat.le_of_succ_le_succ (hfirst (c :: before') after' (congrArg (c :: ·) h))

/-- The last cut leaves the most in front of the piece. -/
theorem splitAtLast?_eq_some_iff {piece text before after : List Char} :
    splitAtLast? piece text = some (before, after) ↔
      text = before ++ piece ++ after ∧
        ∀ before' after', text = before' ++ piece ++ after' → before'.length ≤ before.length := by
  have hreverse (before' after' : List Char) :
      text.reverse = after'.reverse ++ piece.reverse ++ before'.reverse ↔
        text = before' ++ piece ++ after' := by
    rw [← List.reverse_inj, List.reverse_reverse]
    simp
  have hlength {before' after' : List Char} (h : text = before' ++ piece ++ after') :
      text.length = before'.length + piece.length + after'.length := by
    rw [h, List.length_append, List.length_append]
  have hcut : splitAtLast? piece text = some (before, after) ↔
      splitAtFirst? piece.reverse text.reverse = some (after.reverse, before.reverse) := by
    rw [splitAtLast?, Option.map_eq_some_iff]
    constructor
    · rintro ⟨⟨first, last⟩, hfirst, h⟩
      cases h
      simpa using hfirst
    · intro h
      exact ⟨_, h, by simp⟩
  rw [hcut, splitAtFirst?_eq_some_iff, hreverse]
  -- The text being as long as it is, more before the piece is less behind it.
  refine and_congr_right fun htext => ⟨fun h before' after' htext' => ?_, fun h => ?_⟩
  · have hle := h after'.reverse before'.reverse ((hreverse before' after').2 htext')
    have hlength₁ := hlength htext
    have hlength₂ := hlength htext'
    rw [List.length_reverse, List.length_reverse] at hle
    omega
  · intro after' before' htext'
    have hback : text = before'.reverse ++ piece ++ after'.reverse := by
      rw [← hreverse, List.reverse_reverse, List.reverse_reverse]
      exact htext'
    have hle := h _ _ hback
    have hlength₁ := hlength htext
    have hlength₂ := hlength hback
    rw [List.length_reverse] at hle hlength₂ ⊢
    rw [List.length_reverse] at hlength₂
    omega

/-- In front of a piece, a text can hold an earlier place of it, or start one that ends with
    the first character of the piece. If no longer ending of the piece is a beginning of it,
    there are no others, and the piece is at its first place if the text holds neither. -/
theorem splitAtFirst?_append_iff {tail before after : List Char} {c : Char} (hne : tail ≠ [])
    (hborder : ∀ n < tail.length, 0 < n → ¬ (c :: tail).drop n <+: c :: tail) :
    splitAtFirst? (c :: tail) (before ++ (c :: tail) ++ after) = some (before, after) ↔
      ¬ c :: tail <:+: before ++ [c] := by
  rw [splitAtFirst?_eq_some_iff]
  constructor
  · rintro ⟨-, hfirst⟩ ⟨front, back, hplace⟩
    have htext : before ++ (c :: tail) ++ after
        = front ++ (c :: tail) ++ (back ++ (tail ++ after)) := by
      calc before ++ (c :: tail) ++ after = (before ++ [c]) ++ (tail ++ after) := by simp
        _ = front ++ (c :: tail) ++ (back ++ (tail ++ after)) := by rw [← hplace]; simp
    have hle := hfirst front (back ++ (tail ++ after)) htext
    have hlength := congrArg List.length hplace
    have htail := List.length_pos_iff.2 hne
    simp only [List.length_append, List.length_cons, List.length_nil] at hlength
    omega
  · refine fun hclear => ⟨rfl, fun before' after' htext => ?_⟩
    refine Nat.le_of_not_lt fun hearlier => ?_
    rw [List.append_assoc, List.append_assoc, List.append_eq_append_iff] at htext
    rcases htext with ⟨mid, rfl, -⟩ | ⟨mid, rfl, hmid⟩
    · rw [List.length_append] at hearlier
      omega
    · rw [List.length_append] at hearlier
      by_cases hshort : mid.length < tail.length
      · -- What the earlier place has left behind the text is an ending of the piece.
        refine hborder mid.length hshort (by omega) ?_
        have hdrop := congrArg (List.drop mid.length) hmid
        rw [List.drop_left, List.drop_append_of_le_length (by simp; omega)] at hdrop
        have hending : (c :: tail).drop mid.length <+: (c :: tail) ++ after := ⟨after', hdrop⟩
        apply List.prefix_of_prefix_length_le hending (List.prefix_append _ _)
        simp
      · -- The earlier place ends with the first character of the piece, or before it.
        have hfront : c :: tail <+: mid ++ [c] := by
          have hplace : c :: tail <+: mid ++ ((c :: tail) ++ after) := ⟨after', hmid⟩
          have hstart : mid ++ [c] <+: mid ++ ((c :: tail) ++ after) := ⟨tail ++ after, by simp⟩
          apply List.prefix_of_prefix_length_le hplace hstart
          simp only [List.length_append, List.length_cons, List.length_nil]
          omega
        apply hclear
        rw [List.append_assoc]
        exact hfront.isInfix.trans List.infix_append_right

/-- Behind a text, a piece is at its last place if what it starts with is not found again
    behind its first character. -/
theorem splitAtLast?_append {start tail before after : List Char} {c : Char}
    (hstart : start <+: c :: tail) (hlast : ¬ start <:+: tail ++ after) :
    splitAtLast? (c :: tail) (before ++ (c :: tail) ++ after) = some (before, after) := by
  refine splitAtLast?_eq_some_iff.2 ⟨rfl, fun before' after' h => ?_⟩
  refine Nat.le_of_not_lt fun hlater => ?_
  rw [List.append_assoc, List.append_assoc, List.append_eq_append_iff] at h
  rcases h with ⟨mid, rfl, hpiece⟩ | ⟨mid, rfl, -⟩
  · cases mid with
    | nil => simp at hlater
    | cons d mid =>
      -- The later place starts with `start`, somewhere behind the first character.
      rw [List.cons_append, List.cons_append] at hpiece
      obtain ⟨-, htail⟩ := List.cons.inj hpiece
      obtain ⟨rest, hrest⟩ := hstart
      refine hlast ⟨mid, rest ++ after', ?_⟩
      rw [htail, ← hrest]
      simp
  · rw [List.length_append] at hlater
    omega

/-! ## Lines -/

/-- The lines of a text by its first character. -/
theorem splitOn_cons (c : Char) (cs : List Char) :
    (c :: cs).splitOn '\n'
      = if c = '\n' then [] :: cs.splitOn '\n' else (cs.splitOn '\n').modifyHead (c :: ·) := by
  rw [List.splitOn, List.splitOnP_cons_eq_if_modifyHead]
  simp [List.splitOn]

/-- The first line of a text starts as the text does, unless it is empty. -/
theorem eq_of_head_splitOn {c d : Char} {cs line : List Char}
    (hline : ((d :: cs).splitOn '\n').head? = some line) (hc : line.head? = some c) : c = d := by
  rw [splitOn_cons] at hline
  split at hline
  · cases hline
    cases hc
  · rw [List.head?_modifyHead, Option.map_eq_some_iff] at hline
    obtain ⟨rest, -, rfl⟩ := hline
    exact (Option.some.inj hc).symm

/-- If a text starts with a sort of character and so do its lines behind the first one, all
    its lines do. -/
theorem starts_of_starts_tail {sort : Char → Prop} {d : Char} {cs : List Char} (hd : sort d)
    (htail : ∀ line ∈ ((d :: cs).splitOn '\n').tail, ∀ c, line.head? = some c → sort c) :
    ∀ line ∈ (d :: cs).splitOn '\n', ∀ c, line.head? = some c → sort c := by
  intro line hline c hc
  cases hlines : (d :: cs).splitOn '\n' with
  | nil => exact absurd hlines (List.splitOn_ne_nil '\n' _)
  | cons first rest =>
    rw [hlines] at hline htail
    rcases List.mem_cons.1 hline with rfl | hline
    · rw [eq_of_head_splitOn (by rw [hlines]; rfl) hc]
      exact hd
    · exact htail line hline c hc

/-! ## Line feeds -/

/-- Behind every line feed of a text stands a character of a sort. -/
def BreaksBefore (sort : Char → Prop) (cs : List Char) : Prop :=
  ∀ front back, cs = front ++ '\n' :: back → ∃ c rest, back = c :: rest ∧ sort c

section Breaks

variable {sort : Char → Prop} {cs ds : List Char}

theorem BreaksBefore.imp {sort' : Char → Prop} (h : BreaksBefore sort cs)
    (hsort : ∀ c, sort c → sort' c) : BreaksBefore sort' cs := by
  intro front back hcs
  obtain ⟨c, rest, hback, hc⟩ := h front back hcs
  exact ⟨c, rest, hback, hsort c hc⟩

theorem breaksBefore_of_notMem (h : '\n' ∉ cs) : BreaksBefore sort cs := by
  rintro front back rfl
  exact absurd (List.mem_append_right front List.mem_cons_self) h

theorem breaksBefore_append (hcs : BreaksBefore sort cs) (hds : BreaksBefore sort ds) :
    BreaksBefore sort (cs ++ ds) := by
  intro front back h
  obtain ⟨mid, hfront, hds'⟩ | ⟨mid, hcs', hback⟩ := List.append_eq_append_iff.1 h
  · -- In the second text.
    exact hds mid back hds'
  · cases mid with
    | nil => exact hds [] back (by simpa using hback.symm)
    | cons d mid =>
      obtain ⟨rfl, rfl⟩ := List.cons.inj hback
      -- In the first text, with something behind it there already.
      obtain ⟨c, rest, rfl, hc⟩ := hcs front mid hcs'
      exact ⟨c, rest ++ ds, rfl, hc⟩

theorem breaksBefore_flatMap {α : Type} {as : List α} {f : α → List Char}
    (h : ∀ a ∈ as, BreaksBefore sort (f a)) : BreaksBefore sort (as.flatMap f) := by
  induction as with
  | nil => exact breaksBefore_of_notMem List.not_mem_nil
  | cons a as ih =>
    rw [List.forall_mem_cons] at h
    exact breaksBefore_append h.1 (ih h.2)

/-- A line feed, and a character of the sort behind it. -/
theorem breaksBefore_break {c : Char} (hc : sort c) (h : BreaksBefore sort (c :: cs)) :
    BreaksBefore sort ('\n' :: c :: cs) := by
  intro front back heq
  cases front with
  | nil =>
    obtain ⟨-, rfl⟩ := List.cons.inj heq
    exact ⟨c, cs, rfl, hc⟩
  | cons d front => exact h front back (List.cons.inj heq).2

/-- Without two line feeds in a row, there is no blank line inside of a text. -/
theorem BreaksBefore.not_infix (h : BreaksBefore sort cs) (hsort : ¬ sort '\n') :
    ¬ ['\n', '\n'] <:+: cs := by
  rintro ⟨front, back, hcs⟩
  obtain ⟨c, rest, hback, hc⟩ := h front ('\n' :: back) (by simp [← hcs])
  obtain ⟨rfl, -⟩ := List.cons.inj hback
  exact hsort hc

/-- Behind the first line of a text, no line starts with another sort of character. -/
theorem BreaksBefore.starts_tail (h : BreaksBefore sort cs) :
    ∀ line ∈ (cs.splitOn '\n').tail, ∀ c, line.head? = some c → sort c := by
  induction cs with
  | nil => simp
  | cons d cs ih =>
    have htail := ih fun front back hcs => h (d :: front) back (congrArg (d :: ·) hcs)
    rw [splitOn_cons]
    split
    · next hd =>
      -- What stands behind the line feed starts with the sort, and so does its first line.
      subst hd
      obtain ⟨e, cs, rfl, he⟩ := h [] cs rfl
      exact starts_of_starts_tail he htail
    · rw [List.tail_modifyHead]
      exact htail

end Breaks

end Stylebook.Text
