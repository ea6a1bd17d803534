/-
  Stylebook.Proofs.SearchPieces

  Searching for what stands in a record. A query that was cut out of a searchable text
  finds the record as long as each capital sigma of the query has the same lower case as
  in the text it was cut from. A sigma at the edge of the query may lose its form there:
  at the end of a query it is final, and inside the word that the query was cut from it is
  not. So the queries that find all that holds them are those whose sigmas are settled by
  the query itself (`search_finds_pieces`), and the beginning of a word in capitals need
  not find the word (`beginning_of_word_not_found`).
-/

import Stylebook.Proofs.SearchExact
import Stylebook.Proofs.Text.Lowercase

namespace Stylebook

open Text (SigmasKept SigmasSettled)

variable {c : Catalog} {k : Kind} {e : Entry k} {query text before after : String}

/-- A query finds every record of every catalog that has it as a piece of a searchable
    text. -/
def FindsPieces (query : String) : Prop :=
  ∀ (c : Catalog) (k : Kind) (e : Entry k) (text before after : String),
    e ∈ c.entries k → k.Searchable e.key e.record.fields text →
    text = before ++ query ++ after → e ∈ ((c.search query).matched k).map Match.entry

/-! ## Records that hold the query -/

/-- A record answers a query if the query is a piece of a searchable text, both in lower
    case. -/
theorem answers_of_contains (htext : k.Searchable e.key e.record.fields text)
    (h : Text.contains (Text.lower query.toList) (Text.lower text.toList) = true) :
    e.Answers query :=
  ⟨text, htext, Entry.contains_lower_iff.1 h⟩

theorem answers_of_sigmasKept
    (htext : k.Searchable e.key e.record.fields (before ++ query ++ after))
    (hkept : SigmasKept before.toList query.toList after.toList) : e.Answers query := by
  refine answers_of_contains htext ?_
  rw [String.toList_append, String.toList_append]
  exact Text.contains_lower_of_sigmasKept hkept

/-! ## Records with one text -/

/-- A tone that can be found under one text only. -/
def toneCalled (text : String) : Entry .tone := ⟨(), ⟨⟨"", text, text, text⟩, []⟩⟩

/-- A catalog with one tone. -/
def Catalog.ofTone (e : Entry .tone) : Catalog where
  entries
    | .tone => [e]
    | _ => []

theorem searchable_toneCalled_iff {searched : String} :
    Kind.tone.Searchable (toneCalled text).key (toneCalled text).record.fields searched ↔
      searched = text := by
  simp [Kind.Searchable, toneCalled]

/-- A tone with one text answers what this text holds, and nothing else. -/
theorem answers_toneCalled_iff :
    (toneCalled text).Answers query ↔
      Text.contains (Text.lower query.toList) (Text.lower text.toList) = true := by
  rw [Entry.contains_lower_iff, Entry.Answers]
  simp only [searchable_toneCalled_iff, exists_eq_left]

/-! ## Queries that find all that holds them -/

theorem findsPieces_iff_contains :
    FindsPieces query ↔ ∀ before after, Text.contains (Text.lower query.toList)
      (Text.lower (before ++ query.toList ++ after)) = true := by
  constructor
  · -- A tone with just this text is found only by it.
    intro h before after
    have hmem := h (.ofTone (toneCalled (.ofList before ++ query ++ .ofList after))) .tone _ _
      (.ofList before) (.ofList after) (List.mem_singleton.2 rfl)
      (searchable_toneCalled_iff.2 rfl) rfl
    have hcontains := answers_toneCalled_iff.1 (mem_matched_iff.1 hmem).2
    simpa using hcontains
  · rintro h c k e text before after he htext rfl
    refine mem_matched_iff.2 ⟨he, answers_of_contains htext ?_⟩
    rw [String.toList_append, String.toList_append]
    exact h before.toList after.toList

/-- What a query cut out of a searchable text finds, for every query:

    * in any catalog, it finds a record with a searchable text that holds it, if its
      capital sigmas have the forms between what stands before and after it that they have
      in the query;
    * it finds all records that hold it, in all catalogs, exactly if the forms of its
      capital sigmas are settled inside the query. -/
theorem search_finds_pieces (query : String) :
    (∀ (c : Catalog) (k : Kind) (e : Entry k) (text before after : String),
      e ∈ c.entries k → k.Searchable e.key e.record.fields text →
      text = before ++ query ++ after →
      SigmasKept before.toList query.toList after.toList →
      e ∈ ((c.search query).matched k).map Match.entry) ∧
    (FindsPieces query ↔ SigmasSettled query.toList) := by
  constructor
  · rintro c k e text before after he htext rfl hkept
    exact mem_matched_iff.2 ⟨he, answers_of_sigmasKept htext hkept⟩
  · rw [findsPieces_iff_contains, Text.sigmasSettled_iff_contains]

/-- A query whose sigma is followed by a letter finds the word it begins; the end of a word
    finds the word as well, since its sigma is final in both. -/
theorem search_finds_pieces_sample :
    toneCalled "ΣΟΦΟΣ" ∈
      (((Catalog.ofTone (toneCalled "ΣΟΦΟΣ")).search "ΣΟΦ").matched .tone).map Match.entry ∧
    toneCalled "ΣΟΦΟΣ" ∈
      (((Catalog.ofTone (toneCalled "ΣΟΦΟΣ")).search "ΦΟΣ").matched .tone).map Match.entry := by
  constructor
  · have hsettled : SigmasSettled ['Σ', 'Ο', 'Φ'] := by
      intro xs ys hpiece
      cases xs with
      | nil =>
        cases hpiece
        exact ⟨.inr (by decide), nofun⟩
      | cons x xs =>
        -- Behind the first letter there is no other sigma.
        have hmem : Text.capitalSigma ∈ ['Ο', 'Φ'] := by
          rw [(List.cons.inj hpiece).2]
          exact List.mem_append_right xs List.mem_cons_self
        exact absurd hmem (by decide)
    exact (search_finds_pieces "ΣΟΦ").2.2 hsettled _ _ _ "ΣΟΦΟΣ" "" "ΟΣ"
      (List.mem_singleton.2 rfl) (searchable_toneCalled_iff.2 rfl) (by decide)
  · have hkept : SigmasKept "ΣΟ".toList "ΦΟΣ".toList "".toList :=
      Text.lowerBetween_eq_lower_iff.1 (by decide)
    exact (search_finds_pieces "ΦΟΣ").1 _ _ _ "ΣΟΦΟΣ" "ΣΟ" ""
      (List.mem_singleton.2 rfl) (searchable_toneCalled_iff.2 rfl) (by decide) hkept

/-- The beginning of a word in capitals is a piece of the word, and does not find it: its
    sigma is final in the query and not in the word. -/
theorem beginning_of_word_not_found :
    toneCalled "ΚΟΣΜΟΣ" ∈ (Catalog.ofTone (toneCalled "ΚΟΣΜΟΣ")).entries .tone ∧
    Kind.tone.Searchable () (toneCalled "ΚΟΣΜΟΣ").record.fields "ΚΟΣΜΟΣ" ∧
    "ΚΟΣΜΟΣ" = "" ++ "ΚΟΣ" ++ "ΜΟΣ" ∧
    ((Catalog.ofTone (toneCalled "ΚΟΣΜΟΣ")).search "ΚΟΣ").matched .tone = [] ∧
    ¬ FindsPieces "ΚΟΣ" := by
  have hmem : toneCalled "ΚΟΣΜΟΣ" ∈ (Catalog.ofTone (toneCalled "ΚΟΣΜΟΣ")).entries .tone :=
    List.mem_singleton.2 rfl
  have htext : Kind.tone.Searchable () (toneCalled "ΚΟΣΜΟΣ").record.fields "ΚΟΣΜΟΣ" :=
    searchable_toneCalled_iff.2 rfl
  have hpiece : "ΚΟΣΜΟΣ" = "" ++ "ΚΟΣ" ++ "ΜΟΣ" := by decide
  have hnone : ((Catalog.ofTone (toneCalled "ΚΟΣΜΟΣ")).search "ΚΟΣ").matched .tone = [] := rfl
  refine ⟨hmem, htext, hpiece, hnone, fun h => ?_⟩
  have hfound := h _ _ _ _ _ _ hmem htext hpiece
  rw [hnone] at hfound
  cases hfound

end Stylebook
