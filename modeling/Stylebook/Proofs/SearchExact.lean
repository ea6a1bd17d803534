/-
  Stylebook.Proofs.SearchExact

  What a search finds, said without the search. An entry answers a query if one of its
  searchable texts, in lower case, is some text, the query in lower case, and some text
  (`Entry.Answers`). The matches in each collection are the entries that answer, in the
  order of the data and as often as they stand there, each with the tags of its own
  collection; the total counts them all (`search_finds_what_answers`).
-/

import Stylebook.Search

namespace Stylebook

/-! ## Answering a query -/

/-- The texts of a record under which it can be found. -/
def Kind.Searchable : (k : Kind) → k.Key → k.Fields → String → Prop
  | .style, _, (f : Style), text =>
    text = f.name ∨ text = f.nameVi ∨ text = f.description ∨ text ∈ f.characteristics ∨
      text ∈ f.bestFor
  | .tone, _, (f : Tone), text => text = f.name ∨ text = f.nameVi ∨ text = f.description
  | .outline, _, (f : Outline), text => text = f.name ∨ text = f.nameVi ∨ text ∈ f.bestFor
  | .industry, _, (f : Industry), text =>
    text = f.name ∨ text = f.id ∨ text ∈ f.topics ∨ text ∈ f.keywords
  | .blacklist, (key : String), (f : PhraseGroup), text =>
    text = key ∨ text = f.description ∨ text ∈ f.phrases

/-- An entry answers a query if a searchable text of it holds the query, both in lower
    case. -/
def Entry.Answers {k : Kind} (query : String) (e : Entry k) : Prop :=
  ∃ text, k.Searchable e.key e.record.fields text ∧
    ∃ before after, Text.lowercase text = before ++ Text.lowercase query ++ after

namespace Entry

variable {k : Kind}

/-- The search looks at the searchable texts and at no others. -/
theorem mem_searchTexts_iff {e : Entry k} {text : String} :
    text ∈ e.searchTexts ↔ k.Searchable e.key e.record.fields text := by
  cases k with
  | style => simp [searchTexts, Kind.searchTexts, Kind.Searchable]
  | tone => simp [searchTexts, Kind.searchTexts, Kind.Searchable]
  | outline => simp [searchTexts, Kind.searchTexts, Kind.Searchable]
  | industry => simp [searchTexts, Kind.searchTexts, Kind.Searchable]
  | blacklist =>
    -- The key is a text only here.
    obtain ⟨(key : String), fields, raw⟩ := e
    simp [searchTexts, Kind.searchTexts, Kind.Searchable]

/-- A text holds another, both in lower case, if it is that text between two others. -/
theorem contains_lower_iff {query text : String} :
    Text.contains (Text.lower query.toList) (Text.lower text.toList) = true ↔
      ∃ before after, Text.lowercase text = before ++ Text.lowercase query ++ after := by
  rw [Text.contains_iff]
  constructor
  · rintro ⟨before, after, h⟩
    refine ⟨String.ofList before, String.ofList after, String.toList_inj.1 ?_⟩
    simpa using h
  · rintro ⟨before, after, h⟩
    refine ⟨before.toList, after.toList, ?_⟩
    have hchars := congrArg String.toList h
    simpa using hchars

theorem holds_iff {query : String} {e : Entry k} :
    e.holds (Text.lower query.toList) = true ↔ e.Answers query := by
  rw [holds, List.any_eq_true, Answers]
  refine exists_congr fun text => ?_
  rw [mem_searchTexts_iff, contains_lower_iff]

instance (query : String) (e : Entry k) : Decidable (e.Answers query) :=
  decidable_of_iff (e.holds (Text.lower query.toList) = true) holds_iff

end Entry

/-! ## Matches in a collection -/

section Collection

variable {k : Kind} {entries : List (Entry k)} {query : String}

theorem searchEntries_eq :
    searchEntries entries query
      = (entries.filter fun e => e.Answers query).map Entry.tagged := by
  have hfilter : entries.filter (Entry.holds (Text.lower query.toList))
      = entries.filter fun e => e.Answers query := by
    refine List.filter_congr fun e _ => ?_
    rw [Bool.eq_iff_iff, Entry.holds_iff, decide_eq_true_iff]
  rw [searchEntries, hfilter]

/-- The matched entries are those that answer, in their order and number. -/
theorem map_entry_searchEntries :
    (searchEntries entries query).map Match.entry
      = entries.filter fun e => e.Answers query := by
  rw [searchEntries_eq, List.map_map]
  exact List.map_id _

/-- A match has the tags of its entry. -/
theorem eq_tagged_of_mem_searchEntries {m : Match k} (h : m ∈ searchEntries entries query) :
    m = m.entry.tagged := by
  rw [searchEntries_eq] at h
  obtain ⟨e, -, rfl⟩ := List.mem_map.1 h
  rfl

end Collection

/-! ## Findings -/

/-- The entries that are found in a collection stand there and answer the query. -/
theorem mem_matched_iff {c : Catalog} {query : String} {k : Kind} {e : Entry k} :
    e ∈ ((c.search query).matched k).map Match.entry ↔ e ∈ c.entries k ∧ e.Answers query := by
  show e ∈ (searchEntries (c.entries k) query).map Match.entry ↔ _
  rw [map_entry_searchEntries, List.mem_filter, decide_eq_true_iff]

namespace Catalog

/-- What is found in a collection is settled by its entries. -/
theorem matched_congr {c c' : Catalog} {k : Kind} {query : String}
    (h : c'.entries k = c.entries k) :
    (c'.search query).matched k = (c.search query).matched k := by
  show searchEntries (c'.entries k) query = searchEntries (c.entries k) query
  rw [h]

theorem matched_eq_nil {c : Catalog} {k : Kind} {query : String} (h : c.entries k = []) :
    (c.search query).matched k = [] := by
  show searchEntries (c.entries k) query = []
  rw [h]
  rfl

theorem total_search (c : Catalog) (query : String) :
    (c.search query).total = ((c.search query).matched .style).length
      + ((c.search query).matched .tone).length + ((c.search query).matched .outline).length
      + ((c.search query).matched .industry).length
      + ((c.search query).matched .blacklist).length := by
  simp only [search, Kind.all, List.foldr_cons, List.foldr_nil]
  omega

theorem isEmpty_search_iff (c : Catalog) (query : String) :
    (c.search query).isEmpty = true ↔ ∀ k, (c.search query).matched k = [] := by
  rw [Finding.isEmpty, beq_iff_eq, total_search]
  constructor
  · -- A sum of lengths is zero if each of them is.
    intro h k
    refine List.eq_nil_of_length_eq_zero ?_
    cases k <;> omega
  · intro h
    simp only [h, List.length_nil]

end Catalog

/-- A search is exact, for any catalog and any query: in each collection it finds the
    entries that answer the query and no others, in the order and the number in which they
    stand there; each match has the kind of its collection, and the key of its record as
    its category in the blacklist and none elsewhere; the total is the sum over the
    collections, and nothing is found if nothing is found in any of them. -/
theorem search_finds_what_answers (c : Catalog) (query : String) :
    (∀ k, ((c.search query).matched k).map Match.entry
      = (c.entries k).filter fun e => e.Answers query) ∧
    (∀ k, ∀ m ∈ (c.search query).matched k, m.kind = k ∧ (k ≠ .blacklist → m.category = none)) ∧
    (∀ m ∈ (c.search query).matched .blacklist, m.category = some m.entry.key) ∧
    (c.search query).total = ((c.search query).matched .style).length
      + ((c.search query).matched .tone).length + ((c.search query).matched .outline).length
      + ((c.search query).matched .industry).length
      + ((c.search query).matched .blacklist).length ∧
    ((c.search query).isEmpty = true ↔ ∀ k, (c.search query).matched k = []) ∧
    (c.search query).query = query := by
  refine ⟨fun k => map_entry_searchEntries, ?_, ?_, c.total_search query,
    c.isEmpty_search_iff query, rfl⟩
  · intro k m hm
    rw [eq_tagged_of_mem_searchEntries hm]
    refine ⟨rfl, fun hk => ?_⟩
    -- Only the blacklist is keyed.
    cases k with
    | blacklist => exact absurd rfl hk
    | _ => rfl
  · intro m hm
    rw [eq_tagged_of_mem_searchEntries hm]
    rfl

/-! ## A search -/

/-- The group of phrases that the sample search finds, under its key. -/
def roadGroup : Entry .blacklist := ⟨"Η οδός", ⟨⟨"", ["road"]⟩, []⟩⟩

/-- Two tones, one of them in capitals, and a group of phrases. -/
def roadCatalog : Catalog where
  entries
    | .tone => [⟨(), ⟨⟨"1", "ΟΔΟΣ", "", ""⟩, []⟩⟩, ⟨(), ⟨⟨"2", "road", "", ""⟩, []⟩⟩]
    | .blacklist => [roadGroup]
    | _ => []

/-- The end of the key, in capitals, finds the group and neither tone; with one more accent
    it finds nothing. -/
theorem search_finds_what_answers_sample :
    (roadCatalog.search "ΌΔΌΣ").isEmpty = true ∧
    ((roadCatalog.search "ΔΌΣ").matched .tone).map Match.entry = [] ∧
    roadGroup.tagged ∈ (roadCatalog.search "ΔΌΣ").matched .blacklist ∧
    roadGroup.tagged.kind = .blacklist ∧ roadGroup.tagged.category = some "Η οδός" ∧
    (roadCatalog.search "ΔΌΣ").total = 1 := by
  obtain ⟨-, -, -, -, hempty, -⟩ := search_finds_what_answers roadCatalog "ΌΔΌΣ"
  obtain ⟨hmatched, htags, hcategory, htotal, -, -⟩ := search_finds_what_answers roadCatalog "ΔΌΣ"
  have hmem : roadGroup.tagged ∈ (roadCatalog.search "ΔΌΣ").matched .blacklist :=
    List.mem_singleton.2 rfl
  refine ⟨hempty.2 fun k => ?_, ?_, hmem, (htags _ _ hmem).1, hcategory _ hmem, ?_⟩
  · cases k <;> rfl
  · rw [hmatched]
    rfl
  · rw [htotal]
    rfl

end Stylebook
