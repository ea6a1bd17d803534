/-
  Stylebook.Proofs.Json.PrettyLines

  How the lines of a document start that is written with each item on a line of its own. A
  line feed inside a string is written as an escape, and numbers and words have none, so all
  line feeds are those of the layout: behind each of them stands the blank space of a level,
  or at the outermost level a closing bracket (`breaksBefore_write`). So no line is empty, and
  no line but the first starts with anything else.
-/

import Stylebook.Proofs.Json.RoundTrip
import Stylebook.Proofs.Text.Splitting

namespace Stylebook.Json

open Text (BreaksBefore breaksBefore_of_notMem breaksBefore_append breaksBefore_flatMap
  breaksBefore_break)

/-- What the lines of a written document start with, but for the first line. -/
def StartsLine (c : Char) : Prop := c = ' ' ∨ c = ']' ∨ c = '\x7d'

/-! ## Parts without line feeds -/

theorem newline_notMem_escapeChar (c : Char) : '\n' ∉ escapeChar c := by
  by_cases hcontrol : c.toNat < 0x20
  · -- All of these are written in other characters.
    have hescapes : ∀ n < 0x20, '\n' ∉ escapeChar (Char.ofNat n) := by decide
    have h := hescapes c.toNat hcontrol
    rwa [Char.ofNat_toNat] at h
  · have hc : '\n' ≠ c := by
      rintro rfl
      exact hcontrol (by decide)
    unfold escapeChar
    repeat' split
    all_goals simp [hc]

theorem newline_notMem_writeString (s : String) : '\n' ∉ writeString s := by
  rw [writeString, List.mem_append, List.mem_cons, List.mem_flatMap, List.mem_singleton]
  rintro ((h | ⟨c, -, h⟩) | h)
  · cases h
  · exact newline_notMem_escapeChar c h
  · cases h

theorem newline_notMem_spell (n : Number) : '\n' ∉ n.spell := by
  intro h
  exact absurd (isNumeric_spell n _ h) (by decide)

/-! ## Gaps -/

theorem breaksBefore_gap (level : Nat) :
    BreaksBefore StartsLine (Layout.pretty.gap (level + 1)) := by
  have hspaces : '\n' ∉ List.replicate (2 * (level + 1)) ' ' := by
    simp
  exact breaksBefore_break (.inl rfl) (breaksBefore_of_notMem hspaces)

theorem breaksBefore_gap_bracket (level : Nat) {close : Char} (h : StartsLine close) :
    BreaksBefore StartsLine (Layout.pretty.gap level ++ [close]) := by
  have hclose : '\n' ≠ close := by
    rintro rfl
    rcases h with h | h | h <;> cases h
  cases level with
  | zero => exact breaksBefore_break h (breaksBefore_of_notMem (by simpa using hclose))
  | succ level =>
    exact breaksBefore_append (breaksBefore_gap level)
      (breaksBefore_of_notMem (by simpa using hclose))

/-! ## Rows -/

/-- The line feeds of a row are those in its gaps and in its items. -/
theorem breaksBefore_row {α : Type} {write : α → List Char} {close : Closing} (level : Nat)
    (hclose : StartsLine close.bracket) {a : α} {as : List α}
    (h : ∀ b ∈ a :: as, BreaksBefore StartsLine (write b)) :
    BreaksBefore StartsLine (Layout.pretty.gap (level + 1) ++ (write a
      ++ rowEnd close write (Layout.pretty.gap (level + 1)) (Layout.pretty.gap level) as [])) := by
  rw [List.forall_mem_cons] at h
  have hcomma : BreaksBefore StartsLine [','] := breaksBefore_of_notMem (by decide)
  have hrest : BreaksBefore StartsLine
      (as.flatMap fun b => ',' :: Layout.pretty.gap (level + 1) ++ write b) :=
    breaksBefore_flatMap fun b hb =>
      breaksBefore_append (breaksBefore_append hcomma (breaksBefore_gap level)) (h.2 b hb)
  exact breaksBefore_append (breaksBefore_gap level) (breaksBefore_append h.1
    (breaksBefore_append hrest (breaksBefore_gap_bracket level hclose)))

theorem breaksBefore_writeMember {level : Nat} {m : String × Value}
    (h : BreaksBefore StartsLine (m.2.write .pretty level)) :
    BreaksBefore StartsLine (writeMember .pretty level m) := by
  have hkey : BreaksBefore StartsLine (writeString m.1) :=
    breaksBefore_of_notMem (newline_notMem_writeString m.1)
  have hcolon : BreaksBefore StartsLine Layout.pretty.colon :=
    breaksBefore_of_notMem (by decide)
  exact breaksBefore_append (breaksBefore_append hkey hcolon) h

/-! ## Documents -/

/-- Behind a line feed in a written document stands blank space or a closing bracket. -/
theorem breaksBefore_write (level : Nat) (v : Value) :
    BreaksBefore StartsLine (v.write .pretty level) := by
  induction v using Value.induction generalizing level with
  | null => exact breaksBefore_of_notMem (by simp [Value.write])
  | bool b => cases b <;> exact breaksBefore_of_notMem (by simp [Value.write])
  | number n => exact breaksBefore_of_notMem (newline_notMem_spell n)
  | string s => exact breaksBefore_of_notMem (newline_notMem_writeString s)
  | array items ih =>
    cases items with
    | nil => exact breaksBefore_of_notMem (by simp [Value.write])
    | cons v items =>
      have hopen : BreaksBefore StartsLine ['['] := breaksBefore_of_notMem (by decide)
      have hclose : StartsLine Closing.array.bracket := .inr (.inl rfl)
      have hrow := breaksBefore_row level hclose fun w hw => ih w hw (level + 1)
      rw [← List.append_nil (Value.write _ _ _), write_array_cons]
      exact breaksBefore_append hopen hrow
  | object members ih =>
    cases members with
    | nil => exact breaksBefore_of_notMem (by simp [Value.write])
    | cons m members =>
      have hopen : BreaksBefore StartsLine ['\x7b'] := breaksBefore_of_notMem (by decide)
      have hclose : StartsLine Closing.object.bracket := .inr (.inr rfl)
      have hrow := breaksBefore_row level hclose
        fun w hw => breaksBefore_writeMember (ih w hw (level + 1))
      rw [← List.append_nil (Value.write _ _ _), write_object_cons]
      exact breaksBefore_append hopen hrow

end Stylebook.Json
