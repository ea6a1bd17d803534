/-
  Stylebook.Proofs.LetterCase

  Letter case does not matter to a search. Of a query only its lower case is looked at, so
  queries with one lower case find the same, and so do a query and its lower case, which is
  its own lower case. The data may be put into lower case as well: `Catalog.lowered` does
  so with every text that a search looks at, in the fields and in the object that they
  were read from, and each query finds its matches at the places where they were
  (`letter_case_does_not_matter`).
-/

import Stylebook.Proofs.Text.Lowered
import Stylebook.Proofs.UnreadFields

namespace Stylebook

open Json (Value Members)
open Text (lowercase)

/-! ## Queries -/

section Queries

variable {c c' : Catalog} {query query' : String}

/-- Of a query nothing but its lower case is looked at. -/
theorem matched_eq_of_lowercase_eq (h : lowercase query = lowercase query') (k : Kind) :
    (c.search query).matched k = (c.search query').matched k := by
  have hlower : Text.lower query.toList = Text.lower query'.toList := by
    rw [← Text.toList_lowercase, ← Text.toList_lowercase, h]
  show searchEntries (c.entries k) query = searchEntries (c.entries k) query'
  rw [searchEntries, searchEntries, hlower]

theorem total_search_congr
    (h : ∀ k, ((c.search query).matched k).length = ((c'.search query').matched k).length) :
    (c.search query).total = (c'.search query').total := by
  rw [Catalog.total_search, Catalog.total_search, h, h, h, h, h]

end Queries

/-! ## Values in lower case -/

/-- A text in lower case, and any other value as it is. -/
def lowerText : Value → Value
  | .string s => .string (lowercase s)
  | value => value

/-- A text, or the texts in a list, in lower case. -/
def lowerTexts : Value → Value
  | .array items => .array (items.map lowerText)
  | value => lowerText value

theorem textOf?_lowerText (value : Value) :
    textOf? (lowerText value) = (textOf? value).map lowercase := by
  cases value <;> rfl

theorem textOf?_lowerTexts (value : Value) :
    textOf? (lowerTexts value) = (textOf? value).map lowercase := by
  cases value <;> rfl

theorem textsOf_lowerTexts (value : Value) :
    textsOf (lowerTexts value) = (textsOf value).map lowercase := by
  cases value with
  | array items =>
    rw [lowerTexts, textsOf, textsOf, List.filterMap_map, List.map_filterMap]
    exact List.filterMap_congr fun value _ => textOf?_lowerText value
  | _ => rfl

theorem FieldShape.Fits.lowerTexts {shape : FieldShape} {value : Value} (h : shape.Fits value) :
    shape.Fits (lowerTexts value) := by
  cases shape with
  | text =>
    obtain ⟨s, rfl⟩ := h
    exact ⟨lowercase s, rfl⟩
  | texts =>
    obtain ⟨texts, rfl⟩ := h
    refine ⟨texts.map lowercase, ?_⟩
    rw [Stylebook.lowerTexts, List.map_map, List.map_map]
    rfl

namespace Kind

variable {k : Kind} {members : Members} {key : String}

/-! ## Objects in lower case -/

/-- A member with its texts in lower case, if its key is searched. -/
def lowerMember (k : Kind) (m : String × Value) : String × Value :=
  (m.1, if m.1 ∈ k.searched.map Prod.fst then lowerTexts m.2 else m.2)

/-- An object with the texts under its searched keys in lower case. -/
def lowerMembers (k : Kind) (members : Members) : Members := members.map k.lowerMember

theorem lookup_lowerMembers (members : Members) (key : String) :
    (k.lowerMembers members).lookup key
      = (members.lookup key).map fun value => (k.lowerMember (key, value)).2 := by
  induction members with
  | nil => rfl
  | cons m members ih =>
    rw [lowerMembers, List.map_cons, Json.lookup_cons_eq, Json.lookup_cons_eq]
    show (if key = m.1 then _ else (k.lowerMembers members).lookup key) = _
    rw [ih]
    split
    · next hkey =>
      rw [hkey]
      rfl
    · rfl

theorem textAt_lowerMembers (h : key ∈ k.searched.map Prod.fst) :
    textAt (k.lowerMembers members) key = lowercase (textAt members key) := by
  rw [textAt, textAt, lookup_lowerMembers]
  cases members.lookup key with
  | none => rfl
  | some value =>
    rw [Option.map_some, Option.bind_some, Option.bind_some, lowerMember, if_pos h,
      textOf?_lowerTexts]
    cases textOf? value <;> rfl

theorem textsAt_lowerMembers (h : key ∈ k.searched.map Prod.fst) :
    textsAt (k.lowerMembers members) key = (textsAt members key).map lowercase := by
  rw [textsAt, textsAt, lookup_lowerMembers]
  cases members.lookup key with
  | none => rfl
  | some value =>
    rw [Option.map_some, Option.map_some, Option.map_some, lowerMember, if_pos h,
      textsOf_lowerTexts]
    rfl

theorem lookup_lowerMembers_of_notMem (h : key ∉ k.searched.map Prod.fst) :
    (k.lowerMembers members).lookup key = members.lookup key := by
  rw [lookup_lowerMembers]
  simp only [lowerMember, if_neg h, Option.map_id']

theorem shownAt_lowerMembers (h : key ∉ k.searched.map Prod.fst) :
    shownAt (k.lowerMembers members) key = shownAt members key := by
  rw [shownAt, shownAt, lookup_lowerMembers_of_notMem h]

theorem textsAt_lowerMembers_of_notMem (h : key ∉ k.searched.map Prod.fst) :
    textsAt (k.lowerMembers members) key = textsAt members key := by
  rw [textsAt, textsAt, lookup_lowerMembers_of_notMem h]

theorem Accepts.lowerMembers (h : k.Accepts members) : k.Accepts (k.lowerMembers members) := by
  intro key shape value hsearched hmem
  obtain ⟨m, hm, heq⟩ := List.mem_map.1 hmem
  obtain ⟨rfl, rfl⟩ := Prod.ext_iff.1 heq
  have hkey : m.1 ∈ k.searched.map Prod.fst := List.mem_map_of_mem hsearched
  have hfits := (h m.1 shape m.2 hsearched hm).lowerTexts
  show shape.Fits (if m.1 ∈ k.searched.map Prod.fst then lowerTexts m.2 else m.2)
  rw [if_pos hkey]
  exact hfits

/-! ## Fields in lower case -/

/-- The fields of a record with the searched texts in lower case. -/
def lowerFields : (k : Kind) → k.Fields → k.Fields
  | .style, (f : Style) => ({ f with
      name := lowercase f.name
      nameVi := lowercase f.nameVi
      description := lowercase f.description
      characteristics := f.characteristics.map lowercase
      bestFor := f.bestFor.map lowercase } : Style)
  | .tone, (f : Tone) => ({ f with
      name := lowercase f.name
      nameVi := lowercase f.nameVi
      description := lowercase f.description } : Tone)
  | .outline, (f : Outline) => ({ f with
      name := lowercase f.name
      nameVi := lowercase f.nameVi
      bestFor := f.bestFor.map lowercase } : Outline)
  | .industry, (f : Industry) => ({ f with
      name := lowercase f.name
      id := lowercase f.id
      topics := f.topics.map lowercase
      keywords := f.keywords.map lowercase } : Industry)
  | .blacklist, (f : PhraseGroup) => ({
      description := lowercase f.description
      phrases := f.phrases.map lowercase } : PhraseGroup)

/-- The key of an entry in lower case, where it is a text. -/
def lowerKey : (k : Kind) → k.Key → k.Key
  | .blacklist, (key : String) => lowercase key
  | .style, key => key
  | .tone, key => key
  | .outline, key => key
  | .industry, key => key

/-- An object in lower case holds the fields in lower case. -/
theorem fieldsOf_lowerMembers (k : Kind) (members : Members) :
    k.fieldsOf (k.lowerMembers members) = k.lowerFields (k.fieldsOf members) := by
  -- Each field is a look-up, under a key that is searched or under one that is not.
  cases k
  all_goals
    simp (disch := decide) only [fieldsOf, lowerFields, textAt_lowerMembers,
      textsAt_lowerMembers, shownAt_lowerMembers, textsAt_lowerMembers_of_notMem]
    rfl

/-- The search looks at the same texts of a record in lower case, each in lower case. -/
theorem searchTexts_lowerFields (k : Kind) (key : k.Key) (fields : k.Fields) :
    k.searchTexts (k.lowerKey key) (k.lowerFields fields)
      = (k.searchTexts key fields).map lowercase := by
  cases k with
  | style => simp only [searchTexts, lowerFields, List.map_append, List.map_cons, List.map_nil]
  | tone => simp only [searchTexts, lowerFields, List.map_cons, List.map_nil]
  | outline => simp only [searchTexts, lowerFields, List.map_append, List.map_cons, List.map_nil]
  | industry => simp only [searchTexts, lowerFields, List.map_append, List.map_cons, List.map_nil]
  | blacklist =>
    -- The key is a text only here.
    simp only [searchTexts, lowerKey, lowerFields, List.map_append]
    rfl

end Kind

/-! ## Catalogs in lower case -/

/-- A record with the searched texts in lower case, in its fields and in the object that
    they were read from. -/
def Record.lowered {k : Kind} (r : Record k) : Record k :=
  ⟨k.lowerFields r.fields, k.lowerMembers r.raw⟩

/-- An entry with the texts that a search looks at in lower case. -/
def Entry.lowered {k : Kind} (e : Entry k) : Entry k := ⟨k.lowerKey e.key, e.record.lowered⟩

/-- A catalog with all texts that a search looks at in lower case. -/
def Catalog.lowered (c : Catalog) : Catalog where
  entries k := (c.entries k).map Entry.lowered

section Lowered

variable {k : Kind}

/-- A record in lower case is the one that is read from the object in lower case. -/
theorem Record.ofMembers_lowered {members : Members} {r : Record k}
    (h : Record.ofMembers k members = .ok r) :
    Record.ofMembers k (k.lowerMembers members) = .ok r.lowered := by
  obtain ⟨haccepts, rfl⟩ := Record.ofMembers_eq_ok_iff_accepts.1 h
  refine Record.ofMembers_eq_ok_iff_accepts.2 ⟨haccepts.lowerMembers, ?_⟩
  rw [Kind.fieldsOf_lowerMembers]
  rfl

theorem Entry.searchTexts_lowered (e : Entry k) :
    e.lowered.searchTexts = e.searchTexts.map lowercase :=
  k.searchTexts_lowerFields e.key e.record.fields

/-- An entry in lower case holds the needles that the entry holds: its texts are put into
    lower case before they are looked at, and they are that already. -/
theorem Entry.sameAnswers_lowered (e : Entry k) : e.SameAnswers e.lowered := by
  intro needle
  rw [holds, holds, searchTexts_lowered, List.any_map]
  refine List.any_congr rfl fun text => ?_
  rw [Function.comp_apply, Text.toList_lowercase, Text.lower_lower]

theorem placesFound_lowered (entries : List (Entry k)) (query : String) :
    placesFound (entries.map Entry.lowered) query = placesFound entries query := by
  refine (placesFound_eq_of_sameAnswers ?_ query).symm
  rw [List.forall₂_map_right_iff]
  exact List.forall₂_same.2 fun e _ => e.sameAnswers_lowered

end Lowered

/-- Letter case does not matter to a search, beyond lower case:

    * queries with one lower case have the same matches in every collection, and as many;
    * so do a query and its lower case;
    * with every text that is looked at put into lower case, each query has its matches at
      the places where it had them before. There the search finds them, in any catalog.

    A catalog is put into lower case entry by entry: of each entry the searched texts, one
    by one, its key among them, in the fields as well as in the object that holds them. -/
theorem letter_case_does_not_matter (c : Catalog) :
    (∀ query query' : String, lowercase query = lowercase query' →
      (∀ k, (c.search query).matched k = (c.search query').matched k) ∧
        (c.search query).total = (c.search query').total) ∧
    (∀ query : String,
      (∀ k, (c.search (lowercase query)).matched k = (c.search query).matched k) ∧
        (c.search (lowercase query)).total = (c.search query).total) ∧
    (∀ (k : Kind) (query : String),
      placesFound (c.lowered.entries k) query = placesFound (c.entries k) query) ∧
    (∀ (c' : Catalog) (k : Kind) (query : String), (c'.search query).matched k
      = (placesFound (c'.entries k) query).filterMap
          fun i => (c'.entries k)[i]?.map Entry.tagged) ∧
    (∀ (k : Kind) (e : Entry k), e.lowered.searchTexts = e.searchTexts.map lowercase) ∧
    ∀ (k : Kind) (members : Members) (r : Record k), Record.ofMembers k members = .ok r →
      Record.ofMembers k (k.lowerMembers members) = .ok r.lowered := by
  have hqueries (query query' : String) (h : lowercase query = lowercase query') :
      (∀ k, (c.search query).matched k = (c.search query').matched k) ∧
        (c.search query).total = (c.search query').total := by
    have hmatched := matched_eq_of_lowercase_eq (c := c) h
    exact ⟨hmatched, total_search_congr fun k => by rw [hmatched k]⟩
  refine ⟨hqueries, ?_, ?_, ?_, fun k e => e.searchTexts_lowered, ?_⟩
  · intro query
    exact hqueries _ _ (Text.lowercase_lowercase query)
  · intro k query
    exact placesFound_lowered (c.entries k) query
  · intro c' k query
    exact searchEntries_eq_places (c'.entries k) query
  · intro k members r hr
    exact Record.ofMembers_lowered hr

/-- A tone with capitals in its name and in its id, which is only shown. -/
def capitalTone : Members := [("id", .string "ID"), ("name", .string "İΣΟΣ")]

/-- Two spellings of a query, with sigmas at the end of the word, have one lower case and so
    the same matches. They are found at the same place when the name and the key are in
    lower case. A record in lower case keeps its id. -/
theorem letter_case_does_not_matter_sample :
    (lowercase "ΟΔΟΣ" = lowercase "οΔος" ∧
      (roadCatalog.search "ΟΔΟΣ").matched .tone = (roadCatalog.search "οΔος").matched .tone ∧
      (roadCatalog.search "ΟΔΟΣ").total = (roadCatalog.search "οΔος").total) ∧
    placesFound (roadCatalog.lowered.entries .tone) "ΟΔΟΣ" = [0] ∧
    Record.ofMembers .tone [("id", .string "ID"), ("name", .string "i\u0307σος")]
      = .ok (Record.lowered ⟨Kind.tone.fieldsOf capitalTone, capitalTone⟩) := by
  obtain ⟨hqueries, -, hplaces, -, -, hrecords⟩ := letter_case_does_not_matter roadCatalog
  have hlower : lowercase "ΟΔΟΣ" = lowercase "οΔος" := by decide
  obtain ⟨hmatched, htotal⟩ := hqueries _ _ hlower
  refine ⟨⟨hlower, hmatched .tone, htotal⟩, ?_, ?_⟩
  · rw [hplaces]
    decide
  · have hmembers : Kind.tone.lowerMembers capitalTone
        = [("id", .string "ID"), ("name", .string "i\u0307σος")] := rfl
    rw [← hmembers]
    exact hrecords .tone capitalTone _ rfl

end Stylebook
