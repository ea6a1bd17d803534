/-
  Stylebook.Proofs.JsonBehindText

  The report of a search with its JSON can be taken apart from its end. The delimiter starts
  with two line feeds, and behind its first character no two line feeds follow each other any
  more, neither in the delimiter nor in the JSON, where each line starts with blank space or
  a bracket. So the last place of the delimiter is the one behind the text of the report,
  whatever that text holds (`json_behind_last_delimiter`).
-/

import Stylebook.Proofs.Json.PrettyLines
import Stylebook.Report.Found

namespace Stylebook

open Json (Value Layout StartsLine)
open Text (BreaksBefore breaksBefore_of_notMem breaksBefore_append breaksBefore_break
  starts_of_starts_tail)

namespace Report

/-! ## The delimiter -/

/-- What the delimiter says, on a line of its own. -/
def delimiterLine : List Char := "--- JSON Output ---".toList

theorem delimiter_eq : delimiter.toList = '\n' :: '\n' :: delimiterLine ++ ['\n'] := rfl

theorem delimiterLine_eq : delimiterLine = '-' :: "-- JSON Output ---".toList := rfl

theorem newline_notMem_delimiterLine : '\n' ∉ delimiterLine := by
  decide

/-! ## The JSON of a finding -/

/-- It is an object. -/
theorem exists_pretty_eq (f : Finding) : ∃ rest, f.toJson.pretty.toList = '\x7b' :: rest := by
  rw [Value.pretty, Value.print, String.toList_ofList]
  exact ⟨_, rfl⟩

theorem breaksBefore_pretty (f : Finding) : BreaksBefore StartsLine f.toJson.pretty.toList := by
  rw [Value.pretty, Value.print, String.toList_ofList]
  exact Json.breaksBefore_write 0 f.toJson

/-- Behind the first line feed of the delimiter, no two line feeds follow each other to the end
    of the report. -/
theorem not_infix_delimiter_pretty (f : Finding) :
    ¬ ['\n', '\n'] <:+: '\n' :: delimiterLine ++ '\n' :: f.toJson.pretty.toList := by
  have hjson := breaksBefore_pretty f
  obtain ⟨rest, hrest⟩ := exists_pretty_eq f
  have hnot : ¬ StartsLine '\n' := by
    rintro (h | h | h) <;> cases h
  have hbreaks : BreaksBefore (· ≠ '\n') ('\n' :: delimiterLine ++ '\n' :: '\x7b' :: rest) := by
    rw [hrest] at hjson
    have hjson' : BreaksBefore (· ≠ '\n') ('\x7b' :: rest) :=
      hjson.imp fun c hc heq => hnot (heq ▸ hc)
    have htail := breaksBefore_break (by decide) hjson'
    have hline : BreaksBefore (· ≠ '\n') delimiterLine :=
      breaksBefore_of_notMem newline_notMem_delimiterLine
    exact breaksBefore_break (by decide) (breaksBefore_append hline htail)
  rw [hrest]
  exact hbreaks.not_infix fun h => h rfl

/-- With JSON, the report is the report without it, the delimiter and the JSON. -/
theorem toList_ofFinding (f : Finding) : (ofFinding f true).toList
    = (ofFinding f false).toList ++ delimiter.toList ++ f.toJson.pretty.toList := by
  simp [ofFinding]

end Report

/-- The report of a search with its JSON, for every finding, whatever the query is and whatever
    stands in the records that were found:

    * cut at the last place of the delimiter, it is the report without the JSON and the JSON
      on lines;
    * the JSON holds no two line feeds in a row, and no line of it starts with a hyphen, as
      the line of the delimiter does. -/
theorem json_behind_last_delimiter (f : Finding) :
    Text.splitAtLast? Report.delimiter.toList (Report.ofFinding f true).toList
      = some ((Report.ofFinding f false).toList, f.toJson.pretty.toList) ∧
    ¬ ['\n', '\n'] <:+: f.toJson.pretty.toList ∧
    ∀ line ∈ f.toJson.pretty.toList.splitOn '\n', line.head? ≠ some '-' := by
  have hbreaks := Report.breaksBefore_pretty f
  refine ⟨?_, ?_, ?_⟩
  · rw [Report.toList_ofFinding, Report.delimiter_eq]
    have hstart : ['\n', '\n'] <+: '\n' :: '\n' :: Report.delimiterLine ++ ['\n'] :=
      List.prefix_append _ _
    apply Text.splitAtLast?_append hstart
    simpa using Report.not_infix_delimiter_pretty f
  · exact hbreaks.not_infix (by rintro (h | h | h) <;> cases h)
  · intro line hline hhyphen
    obtain ⟨rest, hrest⟩ := Report.exists_pretty_eq f
    have hnot : ∀ c, StartsLine c → c ≠ '-' := by
      rintro c (rfl | rfl | rfl) <;> decide
    rw [hrest] at hbreaks hline
    have hbreaks' : BreaksBefore (· ≠ '-') ('\x7b' :: rest) := hbreaks.imp hnot
    exact starts_of_starts_tail (by decide) hbreaks'.starts_tail line hline '-' hhyphen rfl

end Stylebook
