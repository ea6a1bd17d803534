/-
  Stylebook.Proofs.SearchDump

  The JSON that follows the text of a search reads back as what was found. Three brackets
  stand around the object of a record there, those of its match, of the array of its
  collection and of the finding, so the JSON may be read if and only if no record that was
  found is nested deeper than three levels less than a document (`Finding.depth_toJson_le_iff`).
  No key is repeated around the records, whatever the query and the keys of the blacklist
  are, since these are written as values.

  What is read has the query as it was typed, the matches of each collection under the
  label of that collection, each with its tags and the object of its record, and their
  number (`search_json_reads_back`).
-/

import Stylebook.Proofs.Export
import Stylebook.Proofs.SearchExact
import Stylebook.Report.Found

namespace Stylebook

open Json (Value Members Layout depthLimit)

/-! ## A match as JSON -/

namespace Match

variable {k : Kind} {m : Match k}

theorem keysDistinct_toJson (h : m.entry.record.toJson.KeysDistinct) : m.toJson.KeysDistinct := by
  cases hcategory : m.category with
  | none => simp [toJson, hcategory, Json.keysDistinct_object_iff, Value.KeysDistinct, h]
  | some key => simp [toJson, hcategory, Json.keysDistinct_object_iff, Value.KeysDistinct, h]

/-- The tags of a match are texts, so only its record counts for its depth. -/
theorem depth_toJson (m : Match k) : m.toJson.depth = m.entry.record.toJson.depth + 1 := by
  cases hcategory : m.category with
  | none => simp [toJson, hcategory, Value.depth, Json.depthMembers]
  | some key => simp [toJson, hcategory, Value.depth, Json.depthMembers]

end Match

namespace Entry

/-- An entry of a list, as it is written when it was found. -/
theorem toJson_tagged {k : Kind} (hk : k ≠ .blacklist) (e : Entry k) :
    e.tagged.toJson
      = .object [("type", .string k.singular), ("data", .object e.record.raw)] := by
  cases k with
  | blacklist => exact absurd rfl hk
  | _ => rfl

/-- An entry of the blacklist, as it is written when it was found. -/
theorem toJson_tagged_blacklist (e : Entry .blacklist) :
    e.tagged.toJson = .object [("type", .string "blacklist"), ("category", .string e.key),
      ("data", .object e.record.raw)] := rfl

end Entry

/-! ## A finding as JSON -/

namespace Finding

variable {f : Finding}

theorem keysDistinct_toJson
    (h : ∀ k, ∀ m ∈ f.matched k, m.entry.record.toJson.KeysDistinct) : f.toJson.KeysDistinct := by
  refine Json.keysDistinct_object_iff.2 ⟨?_, ?_⟩
  · show (["query"] ++ Kind.all.map Kind.label ++ ["total"]).Nodup
    decide
  · simp only [List.forall_mem_append, List.forall_mem_singleton, List.forall_mem_map]
    refine ⟨⟨trivial, fun k _ => ?_⟩, trivial⟩
    exact Json.keysDistinct_array_iff.2
      (List.forall_mem_map.2 fun m hm => Match.keysDistinct_toJson (h k m hm))

/-- The JSON of a finding is not too deep to be read exactly if each record in it leaves three
    levels for what stands around it. -/
theorem depth_toJson_le_iff :
    f.toJson.depth ≤ depthLimit ↔
      ∀ k, ∀ m ∈ f.matched k, m.entry.record.toJson.depth ≤ depthLimit - 3 := by
  have hmatch (k : Kind) (m : Match k) :
      m.toJson.depth ≤ depthLimit - 2 ↔ m.entry.record.toJson.depth ≤ depthLimit - 3 := by
    rw [m.depth_toJson]
    exact Nat.add_le_add_iff_right
  have harray (k : Kind) : (Value.array ((f.matched k).map Match.toJson)).depth ≤ depthLimit - 1 ↔
      ∀ m ∈ f.matched k, m.entry.record.toJson.depth ≤ depthLimit - 3 := by
    refine Json.depth_array_le_iff.trans ?_
    rw [List.forall_mem_map]
    exact forall₂_congr fun m _ => hmatch k m
  refine Json.depth_object_le_iff.trans ?_
  simp only [List.forall_mem_append, List.forall_mem_singleton, List.forall_mem_map]
  constructor
  · rintro ⟨⟨-, h⟩, -⟩ k
    exact (harray k).1 (h k (Kind.mem_all k))
  · exact fun h => ⟨⟨Nat.zero_le _, fun k _ => (harray k).2 (h k)⟩, Nat.zero_le _⟩

/-- The members of a finding's JSON stand under their keys. -/
theorem lookup_toJson (f : Finding) :
    ∃ members, f.toJson = .object members ∧
      members.map Prod.fst
        = ["query", "styles", "tones", "structures", "industries", "blacklist", "total"] ∧
      members.lookup "query" = some (.string f.query) ∧
      (∀ k : Kind, members.lookup k.label = some (.array ((f.matched k).map Match.toJson))) ∧
      members.lookup "total" = some (.number (.int f.total)) := by
  refine ⟨_, rfl, rfl, rfl, fun k => ?_, rfl⟩
  cases k <;> rfl

end Finding

/-! ## A search as JSON -/

namespace Catalog

variable {c : Catalog} {query : String} {k : Kind}

theorem entry_mem_of_mem_search {m : Match k} (hm : m ∈ (c.search query).matched k) :
    m.entry ∈ c.entries k :=
  (mem_matched_iff.1 (List.mem_map_of_mem hm)).1

/-- The matches in a collection are written as their entries are, with the tags of that
    collection. -/
theorem map_toJson_search {object : Entry k → Value}
    (hobject : ∀ e : Entry k, e.tagged.toJson = object e) :
    ((c.search query).matched k).map Match.toJson
      = ((c.search query).matched k).map fun m => object m.entry := by
  refine List.map_congr_left fun m hm => ?_
  rw [← hobject m.entry, ← eq_tagged_of_mem_searchEntries hm]

end Catalog

/-- The JSON behind the text of a search reads back as what was found, in the layout in
    which it is printed and in the other one, if the records of the catalog repeat no key
    and are nested no more than 124 levels deep. -/
theorem search_json_reads_back (c : Catalog) (query : String)
    (hkeys : ∀ k, ∀ e ∈ c.entries k, e.record.toJson.KeysDistinct)
    (hdepth : ∀ k, ∀ e ∈ c.entries k, e.record.toJson.depth ≤ 124)
    (hfloats : (c.search query).toJson.FloatsReadBack) :
    Report.ofFinding (c.search query) true
      = Report.ofFinding (c.search query) false ++ Report.delimiter
        ++ (c.search query).toJson.pretty ∧
    ∃ members, (∀ layout : Layout,
        Json.parse ((c.search query).toJson.print layout) = .ok (.object members)) ∧
      members.map Prod.fst
        = ["query", "styles", "tones", "structures", "industries", "blacklist", "total"] ∧
      members.lookup "query" = some (.string query) ∧
      (∀ k : Kind, k ≠ .blacklist → members.lookup k.label
        = some (.array (((c.search query).matched k).map fun m =>
            .object [("type", .string k.singular), ("data", .object m.entry.record.raw)]))) ∧
      members.lookup "blacklist"
        = some (.array (((c.search query).matched .blacklist).map fun m =>
            .object [("type", .string "blacklist"), ("category", .string m.entry.key),
              ("data", .object m.entry.record.raw)])) ∧
      members.lookup "total" = some (.number (.int (((c.search query).matched .style).length
        + ((c.search query).matched .tone).length + ((c.search query).matched .outline).length
        + ((c.search query).matched .industry).length
        + ((c.search query).matched .blacklist).length : Nat))) := by
  refine ⟨rfl, ?_⟩
  obtain ⟨members, hmembers, hnames, hquery, hsections, htotal⟩ :=
    (c.search query).lookup_toJson
  -- Only entries of the catalog are written, so the JSON may be read.
  have hread (layout : Layout) :
      Json.parse ((c.search query).toJson.print layout) = .ok (c.search query).toJson := by
    refine Json.parse_written layout (Finding.keysDistinct_toJson ?_)
      (Finding.depth_toJson_le_iff.2 ?_) hfloats
    · exact fun k m hm => hkeys k _ (Catalog.entry_mem_of_mem_search hm)
    · exact fun k m hm => hdepth k _ (Catalog.entry_mem_of_mem_search hm)
  refine ⟨members, fun layout => hmembers ▸ hread layout, hnames, hquery, ?_, ?_, ?_⟩
  · intro k hk
    rw [hsections k, Catalog.map_toJson_search (Entry.toJson_tagged hk)]
  · rw [← Catalog.map_toJson_search Entry.toJson_tagged_blacklist]
    exact hsections .blacklist
  · rw [htotal, c.total_search query]

/-! ## A search for a quotation -/

/-- The object of a style with a quotation in its name, and with fields that no search
    reads, one of them a float. -/
def quotingStyle : Members :=
  [("name", .string "Say \"hi\"\n\x01"), ("id", .number (.float Json.threeHalves)),
    ("notes", .array [.null, .object [("name", .string "")]])]

/-- A catalog with this style, and with the quotation as a key of the blacklist. -/
def quotingCatalog : Catalog where
  entries
    | .style => [⟨(), sampleRecord .style quotingStyle⟩]
    | .blacklist => [⟨"\"HI\"\n", sampleRecord .blacklist []⟩]
    | _ => []

theorem quotingCatalog_readable (k : Kind) :
    ∀ e ∈ quotingCatalog.entries k,
      e.record.toJson.KeysDistinct ∧ e.record.toJson.depth ≤ 124 := by
  cases k with
  | style =>
    refine List.forall_mem_singleton.2 ⟨?_, by decide⟩
    simp [Record.toJson, sampleRecord, quotingStyle, Value.KeysDistinct, Json.MembersDistinct,
      Json.ItemsDistinct]
  | blacklist =>
    refine List.forall_mem_singleton.2 ⟨?_, by decide⟩
    simp [Record.toJson, sampleRecord, Value.KeysDistinct, Json.MembersDistinct]
  | _ => exact fun _ he => absurd he List.not_mem_nil

theorem floatsReadBack_quotation :
    (quotingCatalog.search "\"Hi\"\n").toJson.FloatsReadBack := by
  refine Json.floatsReadBack_of_threeHalves fun x hx => ?_
  -- The float of the style, and the number of matches.
  have hnumbers : (quotingCatalog.search "\"Hi\"\n").toJson.numbers
      = [.float Json.threeHalves, .int (2 : Nat)] := rfl
  rw [hnumbers, Json.Number.int_eq_word (by decide)] at hx
  simpa using hx

/-- The quotation is found in both places, and all of it is there when the JSON is read. -/
theorem search_json_reads_back_sample :
    ∃ members,
      Json.parse (quotingCatalog.search "\"Hi\"\n").toJson.pretty = .ok (.object members) ∧
      members.lookup "query" = some (.string "\"Hi\"\n") ∧
      members.lookup "styles" = some (.array [.object [("type", .string "style"),
        ("data", .object quotingStyle)]]) ∧
      members.lookup "blacklist" = some (.array [.object [("type", .string "blacklist"),
        ("category", .string "\"HI\"\n"), ("data", .object [])]]) ∧
      members.lookup "total" = some (.number (.word 2 (by decide))) := by
  obtain ⟨-, members, hread, -, hquery, hsections, hblacklist, htotal⟩ :=
    search_json_reads_back quotingCatalog "\"Hi\"\n"
      (fun k e he => (quotingCatalog_readable k e he).1)
      (fun k e he => (quotingCatalog_readable k e he).2) floatsReadBack_quotation
  have htwo : Json.Number.int (2 : Nat) = .word 2 (by decide) := Json.Number.int_eq_word _
  refine ⟨members, hread .pretty, hquery, hsections .style (by decide), hblacklist, ?_⟩
  rw [htotal, ← htwo]
  rfl

end Stylebook
