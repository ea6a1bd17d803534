/-
  Stylebook.Proofs.Text.Lines

  The lines of a text, and texts that stand on one line. Lines that hold no line feed of
  their own are read back from the text that is put together from them (`lines_unlines`), so
  what is said of them is said of the text. How a line starts can be told from its first
  part alone, if that part and the start in question disagree (`not_startsWith_append`).

  Joined lists (`intercalate_cons`, `intercalate_append_cons`) are taken apart into their
  parts and the gaps, so that a filter or a count goes through them part by part.
-/

import Mathlib.Data.List.DropRight
import Stylebook.Proofs.Text.Pieces
import Stylebook.Text.Blank

namespace Stylebook.Text

/-! ## Joined lists -/

section Joined

variable {α β : Type} (gap part : List α) (parts parts' : List (List α))

/-- A gap stands before every part but the first. -/
theorem intercalate_cons :
    gap.intercalate (part :: parts) = part ++ parts.flatMap (gap ++ ·) := by
  induction parts generalizing part with
  | nil => simp
  | cons next parts ih =>
    rw [List.intercalate_cons_cons, ih, List.flatMap_cons]
    simp only [List.append_assoc]

/-- A part among others: a gap stands behind every part before it, and before every part
    behind it. -/
theorem intercalate_append_cons :
    gap.intercalate (parts' ++ part :: parts)
      = parts'.flatMap (· ++ gap) ++ part ++ parts.flatMap (gap ++ ·) := by
  induction parts' with
  | nil => simp [intercalate_cons]
  | cons first parts' ih =>
    have hne : parts' ++ part :: parts ≠ [] := by simp
    obtain ⟨next, rest, hrest⟩ := List.exists_cons_of_ne_nil hne
    rw [List.cons_append, hrest, List.intercalate_cons_cons, ← hrest, ih, List.flatMap_cons]
    simp only [List.append_assoc]

/-- A filter that keeps nothing of the gap goes through joined lists part by part. -/
theorem filter_intercalate {keep : α → Bool} (hgap : gap.filter keep = []) :
    (gap.intercalate parts).filter keep = parts.flatMap fun part => part.filter keep := by
  cases parts with
  | nil => rfl
  | cons part parts =>
    rw [intercalate_cons, List.filter_append, List.filter_flatMap, List.flatMap_cons]
    simp only [List.filter_append, hgap, List.nil_append]

/-- What is not kept of the list it is taken from adds nothing. -/
theorem flatMap_filter_of_eq_nil {keep : β → Bool} {f : β → List α} {items : List β}
    (h : ∀ b ∈ items, keep b = false → f b = []) :
    (items.filter keep).flatMap f = items.flatMap f := by
  induction items with
  | nil => rfl
  | cons b items ih =>
    rw [List.forall_mem_cons] at h
    rw [List.flatMap_cons, ← ih h.2]
    cases hb : keep b with
    | true => rw [List.filter_cons_of_pos hb, List.flatMap_cons]
    | false => rw [List.filter_cons_of_neg (by simp [hb]), h.1 hb, List.nil_append]

end Joined

/-! ## One line -/

/-- A text without a line feed. -/
def OneLine (text : String) : Prop := '\n' ∉ text.toList

instance (text : String) : Decidable (OneLine text) :=
  inferInstanceAs (Decidable ('\n' ∉ text.toList))

section OneLine

variable {gap text text' : String} {texts : List String}

theorem oneLine_append_iff : OneLine (text ++ text') ↔ OneLine text ∧ OneLine text' := by
  rw [OneLine, String.toList_append, List.mem_append, not_or]
  rfl

theorem OneLine.append (h : OneLine text) (h' : OneLine text') : OneLine (text ++ text') :=
  oneLine_append_iff.2 ⟨h, h'⟩

theorem oneLine_empty : OneLine "" := by
  simp [OneLine]

theorem OneLine.intercalate (hgap : OneLine gap) (h : ∀ text ∈ texts, OneLine text) :
    OneLine (gap.intercalate texts) := by
  have hgap' : ∀ c ∈ gap.toList, c ≠ '\n' := by
    rintro c hc rfl
    exact hgap hc
  have hchars : ∀ c ∈ gap.toList.intercalate (texts.map String.toList), c ≠ '\n' := by
    rw [forall_mem_intercalate_iff hgap', List.forall_mem_map]
    rintro text htext c hc rfl
    exact h text htext hc
  rw [OneLine, String.toList_intercalate]
  exact fun hmem => hchars '\n' hmem rfl

theorem oneLine_preview {limit : Nat} (h : ∀ item ∈ texts.take limit, OneLine item) :
    OneLine (preview limit texts) := by
  refine (OneLine.intercalate (by decide) h).append ?_
  split <;> decide

theorem oneLine_toString (n : Nat) : OneLine (toString n) := by
  have hdigits : (toString n).toList = Nat.toDigits 10 n := String.toList_ofList
  rw [OneLine, hdigits]
  intro h
  exact absurd (Nat.isDigit_of_mem_toDigits (by decide) (by decide) h) (by decide)

end OneLine

/-! ## The lines of a text -/

/-- The lines of a text: what stands between its line feeds. -/
def lines (text : String) : List String := (text.toList.splitOn '\n').map String.ofList

/-- Lines are read back from the text that they were put together to. -/
theorem lines_unlines {ls : List String} (hne : ls ≠ []) (h : ∀ line ∈ ls, OneLine line) :
    lines (unlines ls) = ls := by
  have hsplit : ("\n".toList.intercalate (ls.map String.toList)).splitOn '\n'
      = ls.map String.toList :=
    List.splitOn_intercalate '\n' (List.forall_mem_map.2 h) (by simpa using hne)
  rw [lines, unlines, String.toList_intercalate, hsplit, List.map_map]
  exact List.map_id'' (fun line => String.ofList_toList) ls

/-! ## How a line starts -/

/-- A line starts with a text. -/
def StartsWith (start line : String) : Prop := start.toList <+: line.toList

instance (start line : String) : Decidable (StartsWith start line) :=
  inferInstanceAs (Decidable (start.toList <+: line.toList))

theorem startsWith_append (start rest : String) : StartsWith start (start ++ rest) := by
  rw [StartsWith, String.toList_append]
  exact List.prefix_append _ _

theorem StartsWith.append {start front : String} (h : StartsWith start front) (rest : String) :
    StartsWith start (front ++ rest) :=
  h.trans (startsWith_append front rest)

/-- A text starts with the first character of its first part. -/
theorem head?_append {front : String} {c : Char} (rest : String)
    (h : front.toList.head? = some c) : (front ++ rest).toList.head? = some c := by
  rw [String.toList_append, List.head?_append, h]
  rfl

/-- A line does not start with a text that disagrees with its first part. -/
theorem not_startsWith_append {start front : String} (rest : String)
    (h : ¬ StartsWith start front) (h' : ¬ StartsWith front start) :
    ¬ StartsWith start (front ++ rest) := by
  intro hstart
  rcases List.prefix_or_prefix_of_prefix hstart (startsWith_append front rest) with hle | hle
  · exact h hle
  · exact h' hle

/-! ## The end of a line -/

end Stylebook.Text
