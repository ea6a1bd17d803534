/-
  Stylebook.Proofs.RepeatedKeys

  Repeated keys are resolved in one way at every level of a data file: in the document, in
  the blacklist's groups, in a record and inside its values. A file loads as the one in
  which each object has each key once, where it stands first, with the value that it has
  last. Types are looked at only then, so what is overridden never keeps a file from
  loading, and a null that comes last under the collection's key empties the collection
  (`repeated_keys_keep_last`).
-/

import Stylebook.Proofs.Json.RepeatedKeys
import Stylebook.Proofs.Json.Transcript
import Stylebook.Proofs.UnreadFields

namespace Stylebook

open Json (Value Members KeepsLast ChangesOverridden depthLimit)

/-! ## Documents with repeated keys -/

namespace Json

theorem parse_of_document {text : String} {w : Value} (h : document text.toList = .ok w) :
    parse text = .ok w.settle := by
  rw [parse, h]

/-- For each document that is read there is a text that keeps the last values. -/
theorem exists_keepsLast_of_document {s : List Char} {w : Value} (h : document s = .ok w) :
    ∃ (w' : Value) (text' : String), KeepsLast w w' ∧ document text'.toList = .ok w' := by
  obtain ⟨text', htext⟩ := exists_text_of_document h
  exact ⟨w.settle, text', keepsLast_settle w, htext⟩

end Json

/-! ## Files with repeated keys -/

namespace Kind

variable {k : Kind} {disk disk' : Disk} {directory text text' : String} {w w' body : Value}

/-- A file with a document loads what the settled document holds. -/
theorem load_of_document (hread : disk.read (k.path directory) = .text text)
    (hdocument : Json.document text.toList = .ok w) :
    k.load disk directory
      = (k.entriesIn w.settle).mapError fun m => .malformed (k.path directory) (.mistyped m) := by
  rw [load, hread, ofOutcome, parse, Json.parse_of_document hdocument]
  rcases h : k.entriesIn w.settle with m | es
  · simp only [h]
    rfl
  · simp only [h]
    rfl

theorem load_eq_of_settle_eq (hread : disk.read (k.path directory) = .text text)
    (hdocument : Json.document text.toList = .ok w)
    (hread' : disk'.read (k.path directory) = .text text')
    (hdocument' : Json.document text'.toList = .ok w') (h : w'.settle = w.settle) :
    k.load disk' directory = k.load disk directory := by
  rw [load_of_document hread hdocument, load_of_document hread' hdocument', h]

theorem entriesIn_of_load {es : List (Entry k)} (hread : disk.read (k.path directory) = .text text)
    (hdocument : Json.document text.toList = .ok w) (h : k.load disk directory = .ok es) :
    k.entriesIn w.settle = .ok es := by
  rw [load_of_document hread hdocument] at h
  rcases hes : k.entriesIn w.settle with m | es'
  · rw [hes] at h
    cases h
  · rw [hes] at h
    cases h
    rfl

/-! ## What stands last under the collection's key -/

/-- The value that stands last under the collection's key in a document. -/
def HoldsLast (k : Kind) (document body : Value) : Prop :=
  ∃ members, document = .object members ∧ members.reverse.lookup k.dataKey = some body

theorem bodyOf?_settle_of_holdsLast (h : k.HoldsLast w body) (hnull : body.settle ≠ .null) :
    k.bodyOf? w.settle = .ok (some body.settle) := by
  obtain ⟨members, rfl, hlast⟩ := h
  refine bodyOf?_eq_some_iff.2 ⟨_, rfl, ?_, hnull⟩
  rw [Json.lookup_collapse_settleMembers, hlast]
  rfl

/-- What a settled document has under the collection's key stood there last. -/
theorem exists_holdsLast_of_bodyOf? (h : k.bodyOf? w.settle = .ok (some body)) :
    ∃ last, k.HoldsLast w last ∧ body = last.settle := by
  obtain ⟨members, hmembers, hlookup, -⟩ := bodyOf?_eq_some_iff.1 h
  obtain ⟨raw, rfl, rfl⟩ := Json.exists_object_of_settle hmembers
  rw [Json.lookup_collapse_settleMembers, Option.map_eq_some_iff] at hlookup
  obtain ⟨last, hlast, rfl⟩ := hlookup
  exact ⟨last, ⟨raw, rfl, hlast⟩, rfl⟩

/-- A null that stands last under the collection's key empties the collection. -/
theorem load_of_last_null (hread : disk.read (k.path directory) = .text text)
    (hdocument : Json.document text.toList = .ok w) (hlast : k.HoldsLast w .null) :
    k.load disk directory = .ok [] := by
  obtain ⟨members, rfl, hlookup⟩ := hlast
  have hbody : k.bodyOf? (Value.object members).settle = .ok none := by
    rw [Value.settle, bodyOf?, Json.lookup_collapse_settleMembers, hlookup]
    rfl
  rw [load_of_document hread hdocument, entriesIn, hbody]
  rfl

/-! ## Groups with repeated keys -/

/-- Entries of groups that may repeat keys: each key once, where it stands first, with the
    record in its last group. -/
def LastGroups (groups : Members) (es : List (Entry .blacklist)) : Prop :=
  es.map Entry.key = (groups.map Prod.fst).eraseDups ∧
    ∀ (key : String) (r : Record .blacklist), ⟨key, r⟩ ∈ es →
      ∃ group group', groups.reverse.lookup key = some group ∧ KeepsLast group group' ∧
        Record.ofValue .blacklist group' = .ok r

theorem lastGroups_of_keyedEntries {groups : Members} {es : List (Entry .blacklist)}
    (h : keyedEntries (Value.object groups).settle = .ok es) : LastGroups groups es := by
  obtain ⟨hbody, hreads⟩ := keyedEntries_eq_ok_iff.1 h
  rw [Value.settle, keyedJson, Value.object.injEq, eq_comm] at hbody
  obtain ⟨hkeys, hlookup⟩ := Json.collapse_settleMembers_eq_iff.1 hbody
  have hkeysOf : (es.map fun e => ((e.key, e.record.toJson) : String × Value)).map Prod.fst
      = es.map Entry.key := by
    rw [List.map_map]
    rfl
  refine ⟨hkeysOf.symm.trans hkeys, fun key r hmem => ?_⟩
  have hmember : (key, r.toJson)
      ∈ es.map fun e => ((e.key, e.record.toJson) : String × Value) :=
    List.mem_map.2 ⟨⟨key, r⟩, hmem, rfl⟩
  -- The entries repeat no key, so this is the one under its key.
  have hnodup := Json.nodup_keys_collapse (Json.settleMembers groups)
  rw [← hbody] at hnodup
  have hvalue := hlookup key (List.mem_map_of_mem hmember)
  rw [(lookup_eq_some_iff_mem hnodup).2 hmember, eq_comm, Option.map_eq_some_iff] at hvalue
  obtain ⟨group, hlast, hsettle⟩ := hvalue
  refine ⟨group, group.settle, hlast, Json.keepsLast_settle group, ?_⟩
  rw [hsettle]
  exact ofMembers_record_iff.2 (hreads ⟨key, r⟩ hmem)

/-- What was loaded repeats no key. -/
theorem nodup_keys_of_load {es : List (Entry .blacklist)}
    (h : Kind.blacklist.load disk directory = .ok es) : (es.map Entry.key).Nodup := by
  have hkeys := (Json.keysDistinct_object_iff.1 (loaded_of_load h).keysDistinct).1
  rw [List.map_map] at hkeys
  exact hkeys

/-- The groups that are loaded are the last ones in the file. -/
theorem lastGroups_of_load {es : List (Entry .blacklist)} {groups : Members}
    (hread : disk.read (Kind.blacklist.path directory) = .text text)
    (hdocument : Json.document text.toList = .ok w)
    (hload : Kind.blacklist.load disk directory = .ok es)
    (hlast : Kind.blacklist.HoldsLast w (.object groups)) : LastGroups groups es := by
  have hes := entriesIn_of_load hread hdocument hload
  have hnull : (Value.object groups).settle ≠ .null := by
    rw [Value.settle]
    intro hobject
    cases hobject
  rw [entriesIn, bodyOf?_settle_of_holdsLast hlast hnull] at hes
  exact lastGroups_of_keyedEntries hes

/-- Where something other than an object stands last, or nothing at all, no groups are
    loaded. -/
theorem eq_nil_of_load {es : List (Entry .blacklist)}
    (hread : disk.read (Kind.blacklist.path directory) = .text text)
    (hdocument : Json.document text.toList = .ok w)
    (hload : Kind.blacklist.load disk directory = .ok es)
    (hnone : ∀ groups, ¬ Kind.blacklist.HoldsLast w (.object groups)) : es = [] := by
  rcases entriesIn_eq_ok_iff.1 (entriesIn_of_load hread hdocument hload) with
    ⟨-, hnil⟩ | ⟨body, hbody, hentries⟩
  · exact hnil
  · obtain ⟨last, hlast, rfl⟩ := exists_holdsLast_of_bodyOf? hbody
    obtain ⟨groups, rfl, -⟩ := Json.exists_object_of_settle (keyedEntries_eq_ok_iff.1 hentries).1
    exact absurd hlast (hnone groups)

end Kind

/-- Repeated keys are resolved in one way, in the file of every collection and at every level
    of it:

    * a file loads as any file does whose document has, in each of its objects, each key
      once, where it stands first, with the value that it has last; there is such a file;
    * it loads as any file does that differs from it in a value that is overridden further on,
      whatever stands there, so such a value never makes a load fail or succeed;
    * a null that stands last under the collection's key empties the collection.

    The groups of a loaded blacklist never repeat a key. They are those of the last value under
    the collection's key: each key once, where it stands first, with the record that the
    resolved value of its last group holds. If that value is no object, there are no groups. -/
theorem repeated_keys_keep_last (disk : Disk) (directory : String) :
    (∀ (k : Kind) (text : String) (w : Value), disk.read (k.path directory) = .text text →
      Json.document text.toList = .ok w →
      (∃ (w' : Value) (text' : String), KeepsLast w w' ∧ Json.document text'.toList = .ok w') ∧
      (∀ (disk' : Disk) (text' : String) (w' : Value),
        disk'.read (k.path directory) = .text text' → Json.document text'.toList = .ok w' →
        KeepsLast w w' ∨ ChangesOverridden w w' →
        k.load disk' directory = k.load disk directory) ∧
      (k.HoldsLast w .null → k.load disk directory = .ok [])) ∧
    ∀ es : List (Entry .blacklist), Kind.blacklist.load disk directory = .ok es →
      (es.map Entry.key).Nodup ∧
      ∀ (text : String) (w : Value), disk.read (Kind.blacklist.path directory) = .text text →
        Json.document text.toList = .ok w →
        (∀ groups, Kind.blacklist.HoldsLast w (.object groups) → Kind.LastGroups groups es) ∧
        ((∀ groups, ¬ Kind.blacklist.HoldsLast w (.object groups)) → es = []) := by
  refine ⟨?_, ?_⟩
  · intro k text w hread hdocument
    refine ⟨Json.exists_keepsLast_of_document hdocument, ?_, ?_⟩
    · intro disk' text' w' hread' hdocument' halike
      apply Kind.load_eq_of_settle_eq hread hdocument hread' hdocument'
      rcases halike with hkeeps | hchanges
      · exact hkeeps.settle_eq
      · exact hchanges.settle_eq.symm
    · exact Kind.load_of_last_null hread hdocument
  · intro es hload
    refine ⟨Kind.nodup_keys_of_load hload, fun text w hread hdocument => ⟨?_, ?_⟩⟩
    · exact fun groups => Kind.lastGroups_of_load hread hdocument hload
    · exact Kind.eq_nil_of_load hread hdocument hload

/-! ## A file with keys repeated at every level -/

/-- The beginning of a blacklist, with values that are overridden further on. -/
def overriddenPart : String :=
  "\x7b\"categories\":[true],\"categories\":\x7b\"a\":true,\"b\":\x7b\x7d,"

/-- The rest of it, with the last group. -/
def lastPart : String :=
  "\"a\":\x7b\"phrases\":null,\"phrases\":[],\"n\":\x7b\"y\":true,\"y\":false\x7d\x7d\x7d\x7d"

/-- A blacklist in which the document, the groups, a group and a value in it repeat a key. -/
def repeatedFile : String := overriddenPart ++ lastPart

/-- The groups in it, as they stand. -/
def repeatedGroups : Members :=
  [("a", .bool true),
    ("b", .object []),
    ("a", .object
      [("phrases", .null), ("phrases", .array []),
        ("n", .object [("y", .bool true), ("y", .bool false)])])]

/-- The same blacklist, with each key once. -/
def resolvedFile : String :=
  "\x7b\"categories\":\x7b\"a\":\x7b\"phrases\":[],\"n\":\x7b\"y\":false\x7d\x7d,\"b\":\x7b\x7d\x7d\x7d"

/-- A file whose last value under the collection's key is null. -/
def nullFile : String := "\x7b\"categories\":[true],\"categories\":null\x7d"

theorem document_repeatedFile : Json.document repeatedFile.toList = .ok
    (.object [("categories", .array [.bool true]), ("categories", .object repeatedGroups)]) := by
  rw [repeatedFile, String.toList_append]
  simp only [overriddenPart, lastPart, String.reduceToList, List.cons_append, List.nil_append]
  rfl

theorem document_resolvedFile : Json.document resolvedFile.toList = .ok
    (.object [("categories", .object
      [("a", .object [("phrases", .array []), ("n", .object [("y", .bool false)])]),
        ("b", .object [])])]) := by
  simp only [resolvedFile, String.reduceToList]
  rfl

theorem document_nullFile : Json.document nullFile.toList = .ok
    (.object [("categories", .array [.bool true]), ("categories", .null)]) := by
  simp only [nullFile, String.reduceToList]
  rfl

/-- The blacklist loads as the one with each key once, with two groups; the last null empties
    it. -/
theorem repeated_keys_keep_last_sample :
    Kind.blacklist.load (diskOf resolvedFile) "data"
      = Kind.blacklist.load (diskOf repeatedFile) "data" ∧
    (∃ es, Kind.blacklist.load (diskOf repeatedFile) "data" = .ok es ∧
      Kind.LastGroups repeatedGroups es ∧ es.map Entry.key = ["a", "b"]) ∧
    Kind.blacklist.load (diskOf nullFile) "data" = .ok [] := by
  obtain ⟨hfiles, hgroups⟩ := repeated_keys_keep_last (diskOf repeatedFile) "data"
  obtain ⟨-, halike, -⟩ := hfiles .blacklist _ _ rfl document_repeatedFile
  obtain ⟨hnulls, -⟩ := repeated_keys_keep_last (diskOf nullFile) "data"
  obtain ⟨-, -, hnull⟩ := hnulls .blacklist _ _ rfl document_nullFile
  have hload : ∃ es, Kind.blacklist.load (diskOf repeatedFile) "data" = .ok es := by
    rw [Kind.load_of_document rfl document_repeatedFile]
    exact ⟨_, rfl⟩
  obtain ⟨es, hes⟩ := hload
  obtain ⟨-, hlast⟩ := hgroups es hes
  have hheld := (hlast _ _ rfl document_repeatedFile).1 repeatedGroups ⟨_, rfl, rfl⟩
  refine ⟨?_, ⟨es, hes, hheld, hheld.1⟩, hnull ⟨_, rfl, rfl⟩⟩
  exact halike (diskOf resolvedFile) _ _ rfl document_resolvedFile
    (.inl (Json.keepsLast_iff.2 rfl))

end Stylebook
