/-
  Stylebook.Proofs.Export

  The listing of a catalog as JSON loses nothing. Its sections, taken out of what it
  reads as and written into a data file each, load as the catalog that was listed
  (`listing_json_reloads`). What makes this work for any catalog that was loaded is the
  invariant `Kind.Loaded`: the keys of the blacklist stay apart, and a collection is
  nested one level less than a document may be, so that it fits into the listing and
  into a data file.
-/

import Stylebook.Proofs.Disk
import Stylebook.Proofs.Loading
import Stylebook.Report.Listing

namespace Stylebook

open Json (Value Members Layout depthLimit)

/-! ## Data files of one collection -/

/-- The document of a data file: a collection under its key. -/
def Kind.document (k : Kind) (body : Value) : Value := .object [(k.dataKey, body)]

/-- A collection's file holds a document, in one layout or the other. -/
def Kind.FileHolds (k : Kind) (disk : Disk) (directory : String) (document : Value) : Prop :=
  ∃ layout : Layout, disk.read (k.path directory) = .ofBytes (document.print layout).toUTF8

namespace Kind

variable {k : Kind} {es : List (Entry k)}

theorem Loaded.entriesIn_document (h : k.Loaded es) :
    k.entriesIn (k.document (k.entriesJson es)) = .ok es := by
  refine entriesIn_eq_ok_iff.2 (.inr ⟨_, bodyOf?_eq_some_iff.2 ?_, h.entries⟩)
  exact ⟨_, rfl, List.lookup_cons_self, entriesJson_ne_null k es⟩

/-- A document may be read as it is written. -/
theorem Loaded.document_readable (h : k.Loaded es) :
    (k.document (k.entriesJson es)).KeysDistinct ∧
      (k.document (k.entriesJson es)).depth ≤ depthLimit := by
  constructor
  · exact Json.keysDistinct_object_iff.2 ⟨List.pairwise_singleton _ _,
      List.forall_mem_singleton.2 h.keysDistinct⟩
  · exact Json.depth_object_le_iff.2 (List.forall_mem_singleton.2 (Nat.le_of_lt_succ h.depth_lt))

/-- A collection loads from the file into which it was written. -/
theorem Loaded.load {disk : Disk} {directory : String} (h : k.Loaded es)
    (hfloats : (k.entriesJson es).FloatsReadBack)
    (hfile : k.FileHolds disk directory (k.document (k.entriesJson es))) :
    k.load disk directory = .ok es := by
  -- Bytes, text, document, entries.
  obtain ⟨layout, hread⟩ := hfile
  obtain ⟨hkeys, hdepth⟩ := h.document_readable
  have hdocument : (k.document (k.entriesJson es)).FloatsReadBack :=
    Json.floatsReadBack_object_iff.2 (List.forall_mem_singleton.2 hfloats)
  have hparse := Json.parse_written layout hkeys hdepth hdocument
  rw [ReadOutcome.ofBytes_toUTF8] at hread
  exact load_eq_ok_iff.2 (.inr ⟨_, hread,
    Kind.parse_eq_ok_iff.2 ⟨_, hparse, h.entriesIn_document⟩⟩)

/-- The labels of the collections are distinct, so a value is found under its label. -/
theorem lookup_label (f : Kind → Value) (k : Kind) :
    (all.map fun k => (k.label, f k)).lookup k.label = some (f k) := by
  cases k <;> rfl

end Kind

/-! ## The listing -/

namespace Catalog

variable {c : Catalog}

theorem toJson_keysDistinct (h : ∀ k : Kind, k.Loaded (c.entries k)) : c.toJson.KeysDistinct := by
  refine Json.keysDistinct_object_iff.2 ⟨?_, ?_⟩
  · rw [List.map_map]
    show (Kind.all.map Kind.label).Nodup
    decide
  · intro m hm
    obtain ⟨k, -, rfl⟩ := List.mem_map.1 hm
    exact (h k).keysDistinct

theorem toJson_depth_le (h : ∀ k : Kind, k.Loaded (c.entries k)) : c.toJson.depth ≤ depthLimit := by
  refine Json.depth_object_le_iff.2 fun m hm => ?_
  obtain ⟨k, -, rfl⟩ := List.mem_map.1 hm
  exact Nat.le_of_lt_succ (h k).depth_lt

theorem floatsReadBack_entriesJson (h : c.toJson.FloatsReadBack) (k : Kind) :
    (k.entriesJson (c.entries k)).FloatsReadBack :=
  Json.floatsReadBack_object_iff.1 h _ (List.mem_map_of_mem (Kind.mem_all k))

end Catalog

/-- The JSON listing of a catalog that was loaded reads as an object with a section for
    each collection. Whatever data directory holds these sections, each under its key in
    its file and in either layout, loads as the same catalog. -/
theorem listing_json_reloads {disk : Disk} {directory : String} {kinds : List Kind}
    {c : Catalog} (hload : Catalog.load disk directory kinds = .ok c)
    (hfloats : c.toJson.FloatsReadBack) :
    ∃ sections : Members, Json.parse (Report.ofCatalog c true) = .ok (.object sections) ∧
      sections.map Prod.fst = Kind.all.map Kind.label ∧
      ∀ (disk' : Disk) (directory' : String) (kinds' : List Kind), (∀ k, k ∈ kinds') →
        (∀ k : Kind, ∃ body, sections.lookup k.label = some body ∧
          k.FileHolds disk' directory' (k.document body)) →
        Catalog.load disk' directory' kinds' = .ok c := by
  have hloaded := Catalog.loaded_of_load hload
  -- The sections are those that were written, and each loads from its file.
  refine ⟨Kind.all.map fun k => (k.label, k.entriesJson (c.entries k)), ?_, ?_, ?_⟩
  · exact Json.parse_written .pretty (Catalog.toJson_keysDistinct hloaded)
      (Catalog.toJson_depth_le hloaded) hfloats
  · rw [List.map_map]
    rfl
  · intro disk' directory' kinds' hkinds hfiles
    refine Catalog.load_eq_ok_iff.2 fun k => ⟨fun _ => ?_, fun hk => absurd (hkinds k) hk⟩
    obtain ⟨body, hbody, hfile⟩ := hfiles k
    rw [Kind.lookup_label] at hbody
    cases hbody
    exact (hloaded k).load (Catalog.floatsReadBack_entriesJson hfloats k) hfile

/-! ## An export -/

/-- The record that an object holds if it is accepted. -/
def sampleRecord (k : Kind) (members : Members) : Record k := ⟨k.fieldsOf members, members⟩

/-- A style with a float for its id, and two groups of phrases. -/
def sampleCatalog : Catalog where
  entries
    | .style => [⟨(), sampleRecord .style [("id", .number (.float Json.threeHalves))]⟩]
    | .tone => []
    | .outline => []
    | .industry => []
    | .blacklist => [⟨"b", sampleRecord .blacklist [("phrases", .array [.string "x"])]⟩,
        ⟨"a", sampleRecord .blacklist []⟩]

/-- The file of the sample's styles. -/
def sampleStyles : String := "\x7b\"styles\" : [\x7b\"id\":15e-1\x7d]\x7d"

/-- The file of the sample's blacklist, in which a key is repeated. -/
def sampleBlacklist : String :=
  "\x7b\"categories\":\x7b\"b\":1,\"a\":\x7b\x7d,\"b\":\x7b\"phrases\":[\"x\"]\x7d\x7d\x7d"

/-- A disk with two of the five data files. -/
def sampleDisk : Disk where
  read path :=
    if path = "data/writing-styles.json" then .text sampleStyles
    else if path = "data/marketing-blacklist.json" then .text sampleBlacklist
    else .missing
  isDirectory path := path == "data"

/-- A disk with the sections of a listing in the directory `out`. -/
def exportDisk (sections : Members) : Disk where
  read path :=
    match Kind.all.find? fun k => path == k.path "out" with
    | none => .missing
    | some k =>
      match sections.lookup k.label with
      | none => .missing
      | some body => .ofBytes ((k.document body).print .compact).toUTF8
  isDirectory path := path == "out"

theorem load_sampleDisk : Catalog.load sampleDisk "data" Kind.all = .ok sampleCatalog := by
  refine Catalog.load_eq_ok_iff.2 fun k => ⟨fun _ => Kind.load_eq_ok_iff.2 ?_, ?_⟩
  · cases k with
    | style =>
      refine .inr ⟨sampleStyles, rfl, Kind.parse_eq_ok_iff.2 ⟨.object [("styles",
        .array [.object [("id", .number (.float Json.threeHalves))]])], ?_, rfl⟩⟩
      simp only [Json.parse, sampleStyles, String.reduceToList]
      rfl
    | blacklist =>
      refine .inr ⟨sampleBlacklist, rfl, Kind.parse_eq_ok_iff.2 ⟨.object [("categories",
        .object [("b", .object [("phrases", .array [.string "x"])]), ("a", .object [])])],
        ?_, rfl⟩⟩
      simp only [Json.parse, sampleBlacklist, String.reduceToList]
      rfl
    | _ => exact .inl ⟨rfl, rfl⟩
  · exact fun hk => absurd (Kind.mem_all k) hk

theorem floatsReadBack_sampleCatalog : sampleCatalog.toJson.FloatsReadBack := by
  refine Json.floatsReadBack_of_threeHalves fun x hx => ?_
  simpa [sampleCatalog, sampleRecord, Catalog.toJson, Kind.all, Kind.entriesJson, listJson,
    keyedJson, Record.toJson, Value.numbers, Json.numbersInMembers, Json.numbersInItems] using hx

theorem exportDisk_fileHolds {sections : Members} {k : Kind} {body : Value}
    (h : sections.lookup k.label = some body) :
    k.FileHolds (exportDisk sections) "out" (k.document body) := by
  have hfind : (Kind.all.find? fun j => k.path "out" == j.path "out") = some k := by
    cases k <;> decide
  refine ⟨.compact, ?_⟩
  simp only [exportDisk, hfind, h]

/-- A catalog that was listed, and loaded again from five files with its sections. -/
theorem listing_json_reloads_sample :
    ∃ sections : Members,
      Json.parse (Report.ofCatalog sampleCatalog true) = .ok (.object sections) ∧
      Catalog.load (exportDisk sections) "out" Kind.all = .ok sampleCatalog := by
  obtain ⟨sections, hparse, hkeys, hreload⟩ :=
    listing_json_reloads load_sampleDisk floatsReadBack_sampleCatalog
  refine ⟨sections, hparse, hreload _ "out" Kind.all Kind.mem_all fun k => ?_⟩
  have hlabel : k.label ∈ sections.map Prod.fst := by
    rw [hkeys]
    exact List.mem_map_of_mem (Kind.mem_all k)
  obtain ⟨m, hm, hkey⟩ := List.mem_map.1 hlabel
  have hsome : (sections.lookup k.label).isSome :=
    List.lookup_isSome_iff.2 ⟨m, hm, beq_iff_eq.2 hkey.symm⟩
  obtain ⟨body, hbody⟩ := Option.isSome_iff_exists.1 hsome
  exact ⟨body, hbody, exportDisk_fileHolds hbody⟩

end Stylebook
