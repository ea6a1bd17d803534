/-
  Stylebook.Proofs.SearchNarrowing

  A longer query only narrows a search. What holds the longer query holds each piece of it
  as long as the piece in lower case is a piece of the longer query in lower case, and that
  it is wherever it stands if it has no capital sigma: no other letter looks at its
  neighbours. Then the matches of the longer query are some of the matches of the piece, in
  their order (`longer_query_narrows`). Of the queries with a capital sigma this holds for
  those whose sigmas are settled inside the query, and for no others.
-/

import Stylebook.Proofs.SearchPieces

namespace Stylebook

open Text (SigmasSettled capitalSigma)

variable {c : Catalog} {k : Kind} {e : Entry k} {piece query : String}

/-! ## A piece of a query -/

/-- A text without a capital sigma has no sigma that could depend on its neighbours. -/
theorem Text.sigmasSettled_of_notMem {cs : List Char} (h : capitalSigma ∉ cs) :
    SigmasSettled cs := by
  rintro xs ys rfl
  exact absurd (List.mem_append_right xs List.mem_cons_self) h

/-- An entry that answers a query answers what the query holds, both in lower case. -/
theorem answers_of_answers_longer
    (h : Text.contains (Text.lower piece.toList) (Text.lower query.toList) = true)
    (hanswers : e.Answers query) : e.Answers piece := by
  obtain ⟨text, htext, hquery⟩ := hanswers
  refine ⟨text, htext, ?_⟩
  rw [← Entry.contains_lower_iff] at hquery ⊢
  obtain ⟨before, after, htextEq⟩ := Text.contains_iff.1 hquery
  obtain ⟨before', after', hqueryEq⟩ := Text.contains_iff.1 h
  -- What stands around the query goes on to stand around the piece.
  apply Text.contains_iff.2
  refine ⟨before ++ before', after' ++ after, ?_⟩
  rw [htextEq, hqueryEq]
  simp only [List.append_assoc]

theorem matched_sublist (h : ∀ e : Entry k, e.Answers query → e.Answers piece) :
    List.Sublist ((c.search query).matched k) ((c.search piece).matched k) := by
  show List.Sublist (searchEntries (c.entries k) query) (searchEntries (c.entries k) piece)
  rw [searchEntries_eq, searchEntries_eq]
  apply List.Sublist.map
  apply List.monotone_filter_right
  intro e hanswers
  rw [decide_eq_true_iff] at hanswers ⊢
  exact h e hanswers

theorem total_search_le
    (h : ∀ k, List.Sublist ((c.search query).matched k) ((c.search piece).matched k)) :
    (c.search query).total ≤ (c.search piece).total := by
  have hlength (k : Kind) := (h k).length_le
  have hstyle := hlength .style
  have htone := hlength .tone
  have houtline := hlength .outline
  have hindustry := hlength .industry
  have hblacklist := hlength .blacklist
  rw [Catalog.total_search, Catalog.total_search]
  omega

/-! ## Queries that are narrowed by what is added -/

/-- Whatever is added before and behind a query, in every collection of every catalog the
    longer query has some of its matches, in their order. -/
def Narrows (query : String) : Prop :=
  ∀ (c : Catalog) (before after : String) (k : Kind),
    List.Sublist ((c.search (before ++ query ++ after)).matched k) ((c.search query).matched k)

theorem narrows_of_sigmasSettled (h : SigmasSettled query.toList) : Narrows query := by
  intro c before after k
  refine matched_sublist fun e hanswers => answers_of_answers_longer ?_ hanswers
  rw [String.toList_append, String.toList_append]
  exact Text.sigmasSettled_iff_contains.1 h before.toList after.toList

/-- A query that is narrowed by what is added finds all that holds it: a tone with just the
    longer text is found by that text. -/
theorem sigmasSettled_of_narrows (h : Narrows query) : SigmasSettled query.toList := by
  refine Text.sigmasSettled_iff_contains.2 fun before after => ?_
  have hsublist := h (.ofTone (toneCalled (.ofList before ++ query ++ .ofList after)))
    (.ofList before) (.ofList after) .tone
  have hself : toneCalled (.ofList before ++ query ++ .ofList after) ∈
      (((Catalog.ofTone (toneCalled (.ofList before ++ query ++ .ofList after))).search
        (.ofList before ++ query ++ .ofList after)).matched .tone).map Match.entry := by
    refine mem_matched_iff.2 ⟨List.mem_singleton.2 rfl, answers_toneCalled_iff.2 ?_⟩
    exact Text.contains_iff.2 ⟨[], [], by simp⟩
  have hfound := (hsublist.map Match.entry).subset hself
  have hcontains := answers_toneCalled_iff.1 (mem_matched_iff.1 hfound).2
  simpa using hcontains

/-- A longer query finds less, in every catalog:

    * if a query has no capital sigma, then whatever is added before and behind it, each
      record that the longer query finds is found by the query; in each collection the
      matches of the longer query stand among those of the query in the same order; and the
      longer query has no more matches in all;
    * the queries for which the matches of a longer query always stand among theirs are
      those whose capital sigmas are settled inside the query. -/
theorem longer_query_narrows (query : String) :
    (capitalSigma ∉ query.toList → ∀ (c : Catalog) (before after : String),
      (∀ (k : Kind) (e : Entry k),
        e ∈ ((c.search (before ++ query ++ after)).matched k).map Match.entry →
        e ∈ ((c.search query).matched k).map Match.entry) ∧
      (∀ k : Kind, List.Sublist ((c.search (before ++ query ++ after)).matched k)
        ((c.search query).matched k)) ∧
      (c.search (before ++ query ++ after)).total ≤ (c.search query).total) ∧
    (Narrows query ↔ SigmasSettled query.toList) := by
  refine ⟨?_, sigmasSettled_of_narrows, narrows_of_sigmasSettled⟩
  intro hsigma c before after
  have hsublist := narrows_of_sigmasSettled (Text.sigmasSettled_of_notMem hsigma) c before after
  refine ⟨?_, hsublist, total_search_le hsublist⟩
  intro k e he
  exact ((hsublist k).map Match.entry).subset he

/-! ## A search and a narrower one -/

/-- A query between two sigmas: the word around it, in another spelling, finds one of the two
    records that it finds. -/
theorem longer_query_narrows_sample :
    capitalSigma ∉ "ΟΔΌ".toList ∧
    (List.Sublist ((roadCatalog.search ("Η " ++ "ΟΔΌ" ++ "Σ")).matched .blacklist)
      ((roadCatalog.search "ΟΔΌ").matched .blacklist)) ∧
    (roadCatalog.search ("Η " ++ "ΟΔΌ" ++ "Σ")).total ≤ (roadCatalog.search "ΟΔΌ").total ∧
    roadGroup ∈ ((roadCatalog.search "ΟΔΌ").matched .blacklist).map Match.entry := by
  have hsigma : capitalSigma ∉ "ΟΔΌ".toList := by decide
  obtain ⟨hrecords, hsublist, htotal⟩ :=
    (longer_query_narrows "ΟΔΌ").1 hsigma roadCatalog "Η " "Σ"
  exact ⟨hsigma, hsublist .blacklist, htotal, hrecords _ _ (List.mem_singleton.2 rfl)⟩

end Stylebook
