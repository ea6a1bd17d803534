/-
  Stylebook.Proofs.Text.Pieces

  Where a piece can stand in a text that is put together from parts. A part that lacks the
  first character of the piece can be left out in front, one that lacks its last character
  at the end, and across a character that the piece lacks altogether no place of it can
  reach. What is between joined texts may do all of this (`Separates`); then the piece
  stands in one of the texts or nowhere.

  A piece that is a blank line and a line stands in one line of a text, unless some line
  starts as the piece does (`infix_lines_iff`).
-/

import Stylebook.Text.Layout

namespace Stylebook.Text

/-! ## Parts of a text -/

section Parts

variable {piece front back xs ys : List Char} {c : Char}

/-- A part without the first character of a piece can be left out in front. -/
theorem infix_append_iff_of_head (hhead : piece.head? = some c) (h : c ∉ front) :
    piece <:+: front ++ xs ↔ piece <:+: xs := by
  obtain ⟨tail, rfl⟩ := List.head?_eq_some_iff.1 hhead
  rw [List.infix_append_iff]
  constructor
  · rintro (hfront | hxs | ⟨l₁, l₂, hsplit, hl₁, hl₂⟩)
    · exact absurd (hfront.subset List.mem_cons_self) h
    · exact hxs
    · cases l₁ with
      | nil =>
        rw [List.nil_append] at hsplit
        rw [hsplit]
        exact hl₂.isInfix
      | cons d l₁ =>
        obtain ⟨rfl, -⟩ := List.cons.inj hsplit
        exact absurd (hl₁.subset List.mem_cons_self) h
  · exact fun hxs => .inr (.inl hxs)

/-- A part without the last character of a piece can be left out at the end. -/
theorem infix_append_iff_of_last (hlast : piece.getLast? = some c) (h : c ∉ back) :
    piece <:+: xs ++ back ↔ piece <:+: xs := by
  -- Reversed, it stands in front.
  have hiff : piece.reverse <:+: back.reverse ++ xs.reverse ↔ piece.reverse <:+: xs.reverse :=
    infix_append_iff_of_head (by rw [List.head?_reverse, hlast]) (by simpa using h)
  rw [← List.reverse_append, List.reverse_infix, List.reverse_infix] at hiff
  exact hiff

/-- Across a character that a piece lacks, no place of it can reach. -/
theorem infix_append_cons_iff (hne : piece ≠ []) (h : c ∉ piece) :
    piece <:+: xs ++ c :: ys ↔ piece <:+: xs ∨ piece <:+: ys := by
  have hcons : piece <:+: c :: ys ↔ piece <:+: ys := by
    rw [List.infix_cons_iff, or_iff_right]
    intro hfront
    obtain ⟨d, tail, rfl⟩ := List.exists_cons_of_ne_nil hne
    rw [List.cons_prefix_cons] at hfront
    exact h (hfront.1 ▸ List.mem_cons_self)
  rw [List.infix_append_iff, hcons, ← or_assoc]
  apply or_iff_left_of_imp
  rintro ⟨l₁, l₂, hsplit, hl₁, hl₂⟩
  cases l₂ with
  | nil =>
    rw [List.append_nil] at hsplit
    exact .inl (hsplit ▸ hl₁.isInfix)
  | cons d l₂ =>
    -- The character would be the first of the second half.
    rw [List.cons_prefix_cons] at hl₂
    refine absurd ?_ h
    rw [hsplit, ← hl₂.1]
    exact List.mem_append_right l₁ List.mem_cons_self

end Parts

/-! ## Joined texts -/

/-- No place of a piece can reach into a gap, on either side, nor across it. -/
structure Separates (gap piece : List Char) : Prop where
  crossing : ∃ c ∈ gap, c ∉ piece
  front : ∃ c, piece.head? = some c ∧ c ∉ gap
  back : ∃ c, piece.getLast? = some c ∧ c ∉ gap

section Joined

variable {gap piece xs ys : List Char}

theorem Separates.ne_nil (h : Separates gap piece) : piece ≠ [] := by
  obtain ⟨c, hhead, -⟩ := h.front
  exact List.ne_nil_of_mem (List.mem_of_mem_head? hhead)

/-- In two texts with such a gap between them, a piece stands in one of them. -/
theorem Separates.infix_append_iff (h : Separates gap piece) :
    piece <:+: xs ++ gap ++ ys ↔ piece <:+: xs ∨ piece <:+: ys := by
  obtain ⟨c, hc, hcrossing⟩ := h.crossing
  obtain ⟨g₁, g₂, rfl⟩ := List.append_of_mem hc
  have hsplit : xs ++ (g₁ ++ c :: g₂) ++ ys = (xs ++ g₁) ++ c :: (g₂ ++ ys) := by
    simp
  rw [hsplit, infix_append_cons_iff h.ne_nil hcrossing]
  apply or_congr
  · obtain ⟨d, hlast, hd⟩ := h.back
    exact infix_append_iff_of_last hlast fun hmem => hd (List.mem_append_left _ hmem)
  · obtain ⟨d, hhead, hd⟩ := h.front
    exact infix_append_iff_of_head hhead
      fun hmem => hd (List.mem_append_right _ (List.mem_cons_of_mem c hmem))

/-- In texts joined by such a gap, a piece stands in one of them. -/
theorem Separates.infix_intercalate_iff (h : Separates gap piece) {texts : List (List Char)} :
    piece <:+: gap.intercalate texts ↔ ∃ text ∈ texts, piece <:+: text := by
  induction texts with
  | nil => simpa using h.ne_nil
  | cons text texts ih =>
    cases texts with
    | nil => simp
    | cons next texts =>
      rw [List.intercalate_cons_cons, h.infix_append_iff, ih]
      simp

/-- What holds of all items between lists holds of all items of the joined lists exactly if
    it holds of those of each list. -/
theorem forall_mem_intercalate_iff {α : Type} {p : α → Prop} {gap : List α} {lists : List (List α)}
    (hgap : ∀ a ∈ gap, p a) :
    (∀ a ∈ gap.intercalate lists, p a) ↔ ∀ list ∈ lists, ∀ a ∈ list, p a := by
  induction lists with
  | nil => simp
  | cons list lists ih =>
    rw [List.forall_mem_cons, ← ih]
    -- A separator stands behind a list only if another one follows.
    cases lists with
    | nil => simp
    | cons next lists =>
      rw [List.intercalate_cons_cons, List.forall_mem_append, List.forall_mem_append]
      exact and_congr_left fun _ => and_iff_left hgap

end Joined

/-! ## Lines -/

/-- The characters of a line, with a line feed at its end. -/
def ended (line : String) : List Char := line.toList ++ ['\n']

/-- Lines put together, with a line feed behind the last one too. -/
theorem ended_unlines {lines : List String} (h : lines ≠ []) :
    ended (unlines lines) = lines.flatMap ended := by
  induction lines with
  | nil => exact absurd rfl h
  | cons line lines ih =>
    cases lines with
    | nil => simp [unlines, ended]
    | cons next lines =>
      rw [List.flatMap_cons, ← ih (List.cons_ne_nil next lines)]
      simp [unlines, ended, String.toList_intercalate]

section Lines

variable {c : Char} {tail : List Char} {lines : List String}

/-- No line starts with a character, or with a line feed. -/
theorem not_prefix_lines (hc : c ≠ '\n')
    (h : ∀ line ∈ lines, ∀ d ∈ line.toList.head?, d ≠ '\n' ∧ d ≠ c) :
    ¬ [c] <+: lines.flatMap ended := by
  cases lines with
  | nil => simp
  | cons line lines =>
    rw [List.flatMap_cons, ended]
    have hline := h line List.mem_cons_self
    cases hchars : line.toList with
    | nil => simpa using hc
    | cons d cs =>
      rw [hchars] at hline
      simpa [eq_comm] using (hline d rfl).2

theorem not_newline_prefix_lines (hc : c ≠ '\n')
    (h : ∀ line ∈ lines, ∀ d ∈ line.toList.head?, d ≠ '\n' ∧ d ≠ c) :
    ¬ ['\n', c] <+: lines.flatMap ended := by
  cases lines with
  | nil => simp
  | cons line lines =>
    rw [List.forall_mem_cons] at h
    rw [List.flatMap_cons, ended]
    cases hchars : line.toList with
    | nil =>
      -- The line feed is the whole first line.
      simpa using not_prefix_lines hc h.2
    | cons d cs =>
      rw [hchars] at h
      have hd := (h.1 d rfl).1
      simp [hd.symm]

/-- A blank line and a line, cut behind a line feed: what is left starts with the line, or
    with a line feed and the line. -/
theorem prefix_of_split {l₁ l₂ : List Char} (hline : '\n' ∉ c :: tail) (hne : l₂ ≠ [])
    (hsplit : '\n' :: '\n' :: (c :: tail ++ ['\n']) = l₁ ++ '\n' :: l₂) :
    ['\n', c] <+: l₂ ∨ [c] <+: l₂ := by
  match l₁ with
  | [] =>
    obtain ⟨-, rfl⟩ := List.cons.inj hsplit
    exact .inl (by simp)
  | [_] =>
    simp only [List.cons_append, List.nil_append, List.cons.injEq] at hsplit
    obtain ⟨-, -, rfl⟩ := hsplit
    exact .inr (by simp)
  | _ :: _ :: mid =>
    -- Any later line feed is the last character.
    simp only [List.cons_append, List.cons.injEq] at hsplit
    obtain ⟨-, -, hsplit⟩ := hsplit
    rw [← List.cons_append, List.append_eq_append_iff] at hsplit
    rcases hsplit with ⟨rest, hmid, hrest⟩ | ⟨rest, htail, hrest⟩
    · have hlength := congrArg List.length hrest
      have hpos := List.length_pos_iff.2 hne
      simp only [List.length_append, List.length_cons, List.length_nil] at hlength
      omega
    · cases rest with
      | nil => simp [hne] at hrest
      | cons d rest =>
        obtain ⟨rfl, -⟩ := List.cons.inj hrest
        exact absurd (htail ▸ List.mem_append_right mid List.mem_cons_self) hline

/-- A blank line and a line that follow each other in a text stand within one of its lines,
    where lines are what the text was put together from: none of these starts as that line
    does, or with a line feed. -/
theorem infix_lines_iff (hline : '\n' ∉ c :: tail)
    (h : ∀ line ∈ lines, ∀ d ∈ line.toList.head?, d ≠ '\n' ∧ d ≠ c) :
    '\n' :: '\n' :: (c :: tail ++ ['\n']) <:+: lines.flatMap ended ↔
      ∃ line ∈ lines, '\n' :: '\n' :: (c :: tail ++ ['\n']) <:+: ended line := by
  have hc : c ≠ '\n' := fun hc => hline (hc ▸ List.mem_cons_self)
  induction lines with
  | nil => simp
  | cons line lines ih =>
    rw [List.forall_mem_cons] at h
    have ih : _ ↔ _ := ih h.2
    simp only [List.flatMap_cons, List.infix_append_iff, ih, List.mem_cons, exists_eq_or_imp]
    rw [← or_assoc]
    apply or_iff_left_of_imp
    rintro ⟨l₁, l₂, hsplit, hl₁, hl₂⟩
    -- The first half ends where the line ends, unless one of the halves is empty.
    rw [ended, List.suffix_concat_iff] at hl₁
    rcases hl₁ with rfl | ⟨l₁, rfl, hl₁⟩
    · exact .inr (ih.1 (hsplit ▸ hl₂.isInfix))
    · by_cases hne : l₂ = []
      · rw [hne, List.append_nil] at hsplit
        refine .inl ?_
        rw [hsplit]
        exact (List.suffix_concat_iff.2 (.inr ⟨l₁, rfl, hl₁⟩)).isInfix
      · rw [List.append_assoc] at hsplit
        rcases prefix_of_split hline hne hsplit with hstart | hstart
        · exact absurd (hstart.trans hl₂) (not_newline_prefix_lines hc h.2)
        · exact absurd (hstart.trans hl₂) (not_prefix_lines hc h.2)

end Lines

end Stylebook.Text
