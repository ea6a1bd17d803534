/-
  Stylebook.Proofs.DataFile

  What a data file loads as, for every state of the file and every content. A document
  either has no records (`Kind.NoRecords`), or it holds rows, each with an object that is
  accepted (`Kind.HoldsRows`). These are the documents that load, with one entry for each
  row, in order. A file with any other content is malformed as a whole, and a file that
  cannot be read is a fault of its own (`data_file_loads_as`).
-/

import Stylebook.Proofs.Acceptance
import Stylebook.Proofs.Disk.Tree
import Stylebook.Proofs.Loading

namespace Stylebook

open Json (Value Members)

/-- A list that is made from another one, element by element. -/
theorem forall₂_eq_map_iff {α β : Type} {f : β → α} {P : β → Prop} {as : List α} {bs : List β} :
    List.Forall₂ (fun a b => a = f b ∧ P b) as bs ↔ as = bs.map f ∧ ∀ b ∈ bs, P b := by
  induction bs generalizing as with
  | nil => simp
  | cons b bs ih =>
    rw [List.forall₂_cons_right_iff, List.map_cons, List.forall_mem_cons]
    constructor
    · rintro ⟨a, as, ⟨rfl, hb⟩, hrest, rfl⟩
      obtain ⟨rfl, hbs⟩ := ih.1 hrest
      exact ⟨rfl, hb, hbs⟩
    · rintro ⟨rfl, hb, hbs⟩
      exact ⟨_, _, ⟨rfl, hb⟩, ih.2 ⟨rfl, hbs⟩, rfl⟩

namespace Kind

variable {k : Kind}

/-! ## Rows -/

/-- A row of a collection: an object, in the blacklist with the key that it stands under. -/
abbrev Row (k : Kind) : Type := k.Key × Members

/-- What stands under a collection's key: an object for each row, in a list, or in the
    blacklist each under the key of its row. -/
def rowsJson : (k : Kind) → List k.Row → Value
  | .blacklist, rows => .object (rows.map fun row => (row.1, .object row.2))
  | _, rows => .array (rows.map fun row => .object row.2)

/-- The entry that a row holds. -/
def entryOf (k : Kind) (row : k.Row) : Entry k := ⟨row.1, k.fieldsOf row.2, row.2⟩

theorem rowsJson_eq_entriesJson (rows : List k.Row) :
    k.rowsJson rows = k.entriesJson (rows.map k.entryOf) := by
  cases k <;> simp only [entriesJson, listJson, keyedJson, rowsJson, List.map_map] <;> rfl

/-! ## Entries and the value they were read from -/

/-- An entry whose object is accepted, with the fields that the object holds. -/
def Reads (e : Entry k) : Prop :=
  k.Accepts e.record.raw ∧ k.entryOf (e.key, e.record.raw) = e

theorem ofMembers_record_iff {e : Entry k} :
    Record.ofMembers k e.record.raw = .ok e.record ↔ Reads e := by
  rw [Record.ofMembers_eq_ok_iff_accepts, Reads]
  obtain ⟨key, fields, raw⟩ := e
  simp only [entryOf, Record.mk.injEq, Entry.mk.injEq, true_and, and_true]
  exact and_congr_right fun _ => eq_comm

theorem entry_ofValue_iff {key : k.Key} {v : Value} {e : Entry k} :
    (Record.ofValue k v).map (fun r => (⟨key, r⟩ : Entry k)) = .ok e ↔
      v = e.record.toJson ∧ e.key = key ∧ Reads e := by
  constructor
  · intro h
    obtain ⟨hkey, rfl⟩ := entry_of_ofValue h
    refine ⟨rfl, hkey, ofMembers_record_iff.1 ?_⟩
    rw [Record.toJson, Record.ofValue] at h
    rcases hr : Record.ofMembers k e.record.raw with m | r
    · rw [hr] at h
      cases h
    · rw [hr] at h
      cases h
      rfl
  · rintro ⟨rfl, rfl, hreads⟩
    rw [Record.toJson, Record.ofValue, ofMembers_record_iff.2 hreads]
    rfl

theorem listEntries_eq_ok_iff {key : k.Key} {body : Value} {es : List (Entry k)} :
    listEntries k key body = .ok es ↔
      body = listJson es ∧ ∀ e ∈ es, e.key = key ∧ Reads e := by
  cases body with
  | array items =>
    rw [listEntries, mapM_eq_ok_iff]
    simp only [entry_ofValue_iff]
    rw [forall₂_eq_map_iff, listJson, Value.array.injEq]
  | _ => simp [listEntries, listJson]

theorem keyedEntries_eq_ok_iff {body : Value} {es : List (Entry .blacklist)} :
    keyedEntries body = .ok es ↔ body = keyedJson es ∧ ∀ e ∈ es, Reads e := by
  cases body with
  | object members =>
    rw [keyedEntries, mapM_eq_ok_iff, keyedJson, Value.object.injEq, ← forall₂_eq_map_iff]
    -- A member and its entry have the same key, and the value is the entry's object.
    have hmember (m : String × Value) (e : Entry .blacklist) :
        (Record.ofValue .blacklist m.2).map (fun r => (⟨m.1, r⟩ : Entry .blacklist)) = .ok e ↔
          m = (e.key, e.record.toJson) ∧ Reads e := by
      refine entry_ofValue_iff.trans ?_
      constructor
      · rintro ⟨hvalue, hkey, hreads⟩
        exact ⟨Prod.ext hkey.symm hvalue, hreads⟩
      · rintro ⟨rfl, hreads⟩
        exact ⟨rfl, rfl, hreads⟩
    exact ⟨fun h => h.imp fun m e => (hmember m e).1, fun h => h.imp fun m e => (hmember m e).2⟩
  | _ => simp [keyedEntries, keyedJson]

/-- The entries under a collection's key are those that are written as what stands there,
    if all of them are accepted. -/
theorem entriesOf_eq_ok_iff {body : Value} {es : List (Entry k)} :
    k.entriesOf body = .ok es ↔ body = k.entriesJson es ∧ ∀ e ∈ es, Reads e := by
  cases k with
  | blacklist => exact keyedEntries_eq_ok_iff
  | _ =>
    -- In a list the key of an entry says nothing.
    refine listEntries_eq_ok_iff.trans (and_congr_right fun _ => ?_)
    exact forall₂_congr fun e _ => and_iff_right rfl

/-- They are the entries of the rows that stand there, if the object of every row is
    accepted. -/
theorem entriesOf_eq_ok_iff_rows {body : Value} {es : List (Entry k)} :
    k.entriesOf body = .ok es ↔
      ∃ rows, body = k.rowsJson rows ∧ (∀ row ∈ rows, k.Accepts row.2) ∧
        es = rows.map k.entryOf := by
  rw [entriesOf_eq_ok_iff]
  constructor
  · rintro ⟨rfl, hreads⟩
    -- The row of an entry is its key and its object.
    have hrows : (es.map fun e => (e.key, e.record.raw)).map k.entryOf = es := by
      rw [List.map_map]
      exact (List.map_congr_left fun e he => (hreads e he).2).trans (List.map_id es)
    refine ⟨es.map fun e => (e.key, e.record.raw), ?_, ?_, hrows.symm⟩
    · rw [rowsJson_eq_entriesJson, hrows]
    · intro row hrow
      obtain ⟨e, he, rfl⟩ := List.mem_map.1 hrow
      exact (hreads e he).1
  · rintro ⟨rows, rfl, haccepts, rfl⟩
    refine ⟨rowsJson_eq_entriesJson rows, fun e he => ?_⟩
    obtain ⟨row, hrow, rfl⟩ := List.mem_map.1 he
    exact ⟨haccepts row hrow, rfl⟩

/-! ## Documents -/

/-- A document without records: null, an empty list, or an object in which the
    collection's key is absent or null. -/
def NoRecords (k : Kind) (document : Value) : Prop :=
  document = .null ∨ document = .array [] ∨
    ∃ members, document = .object members ∧
      (members.lookup k.dataKey = none ∨ members.lookup k.dataKey = some .null)

/-- A document that holds rows under the collection's key, the object of every one of them
    accepted. -/
def HoldsRows (k : Kind) (document : Value) (rows : List k.Row) : Prop :=
  (∃ members, document = .object members ∧
    members.lookup k.dataKey = some (k.rowsJson rows)) ∧ ∀ row ∈ rows, k.Accepts row.2

theorem bodyOf?_eq_none_iff {document : Value} :
    k.bodyOf? document = .ok none ↔ k.NoRecords document := by
  cases document with
  | object members =>
    rw [bodyOf?, NoRecords]
    simp only [reduceCtorEq, Value.object.injEq, exists_eq_left', false_or]
    split
    · next hnull => simp [hnull]
    · next hnull =>
      rw [Except.ok.injEq]
      exact ⟨.inl, fun h => h.resolve_right hnull⟩
  | array items => cases items <;> simp [bodyOf?, NoRecords]
  | _ => simp [bodyOf?, NoRecords]

/-- The documents that hold entries, and which ones they hold. -/
theorem entriesIn_eq_ok_iff_rows {document : Value} {es : List (Entry k)} :
    k.entriesIn document = .ok es ↔
      (k.NoRecords document ∧ es = []) ∨
        ∃ rows, k.HoldsRows document rows ∧ es = rows.map k.entryOf := by
  rw [entriesIn_eq_ok_iff, bodyOf?_eq_none_iff]
  refine or_congr_right ?_
  simp only [bodyOf?_eq_some_iff, entriesOf_eq_ok_iff_rows]
  constructor
  · rintro ⟨body, ⟨members, rfl, hlookup, -⟩, rows, rfl, haccepts, rfl⟩
    exact ⟨rows, ⟨⟨members, rfl, hlookup⟩, haccepts⟩, rfl⟩
  · rintro ⟨rows, ⟨⟨members, rfl, hlookup⟩, haccepts⟩, rfl⟩
    refine ⟨_, ⟨members, rfl, hlookup, ?_⟩, rows, rfl, haccepts, rfl⟩
    rw [rowsJson_eq_entriesJson]
    exact entriesJson_ne_null k _

/-! ## Files -/

/-- A file with a text loads what the text holds, and is malformed otherwise. -/
theorem load_of_text {disk : Disk} {directory content : String}
    (hread : disk.read (k.path directory) = .text content) :
    (∀ es, k.load disk directory = .ok es ↔ k.parse content = .ok es) ∧
      ((∃ fault, k.load disk directory = .error (.malformed (k.path directory) fault)) ↔
        ∀ es, k.parse content ≠ .ok es) := by
  rw [load, hread, ofOutcome]
  cases k.parse content <;> simp

/-- The texts that hold entries, and which ones they hold. -/
theorem parse_eq_ok_iff_rows {content : String} {es : List (Entry k)} :
    k.parse content = .ok es ↔
      ∃ document, Json.parse content = .ok document ∧
        ((k.NoRecords document ∧ es = []) ∨
          ∃ rows, k.HoldsRows document rows ∧ es = rows.map k.entryOf) := by
  simp only [parse_eq_ok_iff, entriesIn_eq_ok_iff_rows]

end Kind

/-- What the file of a collection loads as, in any directory of any disk:

    * a missing file is an empty collection; in a tree of files these are the files that do
      not exist and those in a directory that does not;
    * a file that cannot be read as a text is a fault that names its path; in a tree these
      are the files that are neither missing nor hold the bytes of a text;
    * a text loads if it is a JSON document without records, and then there are no entries,
      or one with rows whose objects are all accepted, and then there is one entry for each
      row, in order, with the object of the row and the fields that it holds;
    * any other text is malformed, with a fault that names the path.

    An object holds a record exactly if it is accepted: under each searched key that it has
    there is a text, or a list of texts where one is wanted. -/
theorem data_file_loads_as (k : Kind) (directory : String) :
    (∀ disk : Disk, disk.read (k.path directory) = .missing → k.load disk directory = .ok []) ∧
    (∀ (disk : Disk) (fault : ReadFault), disk.read (k.path directory) = .failed fault →
      k.load disk directory = .error (.unreadable (k.path directory) fault)) ∧
    (∀ (disk : Disk) (content : String), disk.read (k.path directory) = .text content →
      (∀ es, k.load disk directory = .ok es ↔
        ∃ document, Json.parse content = .ok document ∧
          ((k.NoRecords document ∧ es = []) ∨
            ∃ rows, k.HoldsRows document rows ∧ es = rows.map k.entryOf)) ∧
      ((∃ fault, k.load disk directory = .error (.malformed (k.path directory) fault)) ↔
        ∀ document, Json.parse content = .ok document →
          ¬ k.NoRecords document ∧ ∀ rows, ¬ k.HoldsRows document rows)) ∧
    (∀ t : Tree,
      (t.toDisk.read (k.path directory) = .missing ↔ t.Absent (k.path directory)) ∧
      (∀ content, t.toDisk.read (k.path directory) = .text content ↔
        t.HoldsText (k.path directory) content) ∧
      ((∃ fault, t.toDisk.read (k.path directory) = .failed fault) ↔
        ¬ t.Absent (k.path directory) ∧
          ∀ content, ¬ t.HoldsText (k.path directory) content)) ∧
    ∀ members, (∃ r, Record.ofMembers k members = .ok r) ↔ k.Accepts members := by
  refine ⟨?_, ?_, ?_, ?_, fun members => Record.exists_ofMembers_eq_ok_iff⟩
  · intro disk hread
    exact Kind.load_eq_ok_iff.2 (.inl ⟨hread, rfl⟩)
  · intro disk fault hread
    rw [Kind.load, hread, Kind.ofOutcome]
  · intro disk content hread
    obtain ⟨hok, hmalformed⟩ := Kind.load_of_text hread
    refine ⟨fun es => (hok es).trans Kind.parse_eq_ok_iff_rows, hmalformed.trans ?_⟩
    -- No list of entries at all is in the text.
    constructor
    · intro hnone document hdocument
      constructor
      · intro hempty
        exact hnone [] (Kind.parse_eq_ok_iff_rows.2 ⟨document, hdocument, .inl ⟨hempty, rfl⟩⟩)
      · intro rows hrows
        exact hnone _ (Kind.parse_eq_ok_iff_rows.2 ⟨document, hdocument, .inr ⟨rows, hrows, rfl⟩⟩)
    · intro hnone es hes
      obtain ⟨document, hdocument, ⟨hempty, -⟩ | ⟨rows, hrows, -⟩⟩ :=
        Kind.parse_eq_ok_iff_rows.1 hes
      · exact (hnone document hdocument).1 hempty
      · exact (hnone document hdocument).2 rows hrows
  · intro t
    have hne := k.path_ne_empty directory
    exact ⟨Tree.read_eq_missing_iff hne, fun content => Tree.read_eq_text_iff hne,
      Tree.exists_read_eq_failed_iff hne⟩

/-! ## A directory with two data files -/

/-- The file of the sample's styles. -/
def goodStyles : String := "\x7b\"styles\":[\x7b\"id\":7,\"name\":\"A\"\x7d,\x7b\x7d]\x7d"

/-- The styles in it: one with a number for its id, and one without any field. -/
def goodRows : List Kind.style.Row :=
  [((), [("id", .number (.int 7)), ("name", .string "A")]), ((), [])]

/-- The file of the sample's tones. Under the name of the second one stands no text. -/
def badTones : String := "\x7b\"tones\":[\x7b\"name\":\"A\"\x7d,\x7b\"name\":null\x7d]\x7d"

/-- The document in it. -/
def badTonesDocument : Value :=
  .object [("tones", .array [.object [("name", .string "A")], .object [("name", .null)]])]

/-- A tree with both files in one directory. -/
def twoFiles : Tree where
  nodes := [(["data"], .directory), (["writing-styles.json", "data"], .file goodStyles.toUTF8),
    (["tone-variations.json", "data"], .file badTones.toUTF8)]
  here := []

theorem twoFiles_holdsText :
    twoFiles.HoldsText "data/writing-styles.json" goodStyles ∧
      twoFiles.HoldsText "data/tone-variations.json" badTones := by
  have hdata : twoFiles.enter [] "data" = .ok ["data"] := rfl
  constructor
  · exact ⟨⟨by decide, by decide⟩, ["writing-styles.json", "data"],
      .step hdata (.step rfl (.stay _)), rfl⟩
  · exact ⟨⟨by decide, by decide⟩, ["tone-variations.json", "data"],
      .step hdata (.step rfl (.stay _)), rfl⟩

theorem twoFiles_absent :
    twoFiles.Absent "data/blog-structures.json" ∧ twoFiles.Absent "gone/writing-styles.json" := by
  have hdata : twoFiles.enter [] "data" = .ok ["data"] := rfl
  have hgone : twoFiles.enter [] "gone" = .ok ["gone"] := rfl
  constructor
  · exact ⟨⟨by decide, by decide⟩, ["data", "blog-structures.json"], [],
      ["blog-structures.json", "data"], by decide, .step hdata (.step rfl (.stay _)), rfl⟩
  · -- The directory is missing already.
    exact ⟨⟨by decide, by decide⟩, ["gone"], ["writing-styles.json"], ["gone"], by decide,
      .step hgone (.stay _), rfl⟩

theorem parse_goodStyles :
    Json.parse goodStyles = .ok (.object [("styles", Kind.style.rowsJson goodRows)]) := by
  simp only [Json.parse, goodStyles, String.reduceToList]
  rfl

theorem parse_badTones : Json.parse badTones = .ok badTonesDocument := by
  simp only [Json.parse, badTones, String.reduceToList]
  rfl

theorem accepts_goodRows : ∀ row ∈ goodRows, Kind.style.Accepts row.2 := by
  intro row hrow
  refine Kind.mismatch?_eq_none_iff.1 ?_
  rw [goodRows, List.mem_cons, List.mem_singleton] at hrow
  rcases hrow with rfl | rfl <;> rfl

/-- A null under a searched key keeps the tones from loading, the good one as well. -/
theorem not_holdsRows_badTones (rows : List Kind.tone.Row) :
    ¬ Kind.tone.HoldsRows badTonesDocument rows := by
  rintro ⟨⟨members, hmembers, hlookup⟩, haccepts⟩
  cases hmembers
  obtain ⟨row, hrow, hnull⟩ : ∃ row ∈ rows, row.2 = [("name", .null)] := by
    have hitems : [.object [("name", .string "A")], .object [("name", .null)]]
        = rows.map fun row => Value.object row.2 := Value.array.inj (Option.some.inj hlookup)
    have hmem : .object [("name", .null)] ∈ rows.map fun row => Value.object row.2 := by
      rw [← hitems]
      exact List.mem_cons_of_mem _ List.mem_cons_self
    obtain ⟨row, hrow, hobject⟩ := List.mem_map.1 hmem
    exact ⟨row, hrow, Value.object.inj hobject⟩
  have hmismatch := Kind.mismatch?_eq_none_iff.2 (haccepts row hrow)
  rw [hnull] at hmismatch
  cases hmismatch

theorem not_noRecords_badTones : ¬ Kind.tone.NoRecords badTonesDocument := by
  rw [← Kind.bodyOf?_eq_none_iff]
  nofun

/-- One file that loads, one that is malformed, and two that are missing. -/
theorem data_file_loads_as_sample :
    Kind.style.load twoFiles.toDisk "data" = .ok (goodRows.map Kind.style.entryOf) ∧
    (∃ fault, Kind.tone.load twoFiles.toDisk "data"
      = .error (.malformed "data/tone-variations.json" fault)) ∧
    Kind.outline.load twoFiles.toDisk "data" = .ok [] ∧
    Kind.style.load twoFiles.toDisk "gone" = .ok [] := by
  obtain ⟨-, -, hstyles, hstylesTree, -⟩ := data_file_loads_as .style "data"
  obtain ⟨-, -, htones, htonesTree, -⟩ := data_file_loads_as .tone "data"
  obtain ⟨houtlines, -, -, houtlinesTree, -⟩ := data_file_loads_as .outline "data"
  obtain ⟨hgone, -, -, hgoneTree, -⟩ := data_file_loads_as .style "gone"
  refine ⟨?_, ?_, ?_, ?_⟩
  · have hread := ((hstylesTree twoFiles).2.1 _).2 twoFiles_holdsText.1
    have hrows : Kind.style.HoldsRows (.object [("styles", Kind.style.rowsJson goodRows)])
        goodRows := ⟨⟨_, rfl, rfl⟩, accepts_goodRows⟩
    exact ((hstyles _ _ hread).1 _).2 ⟨_, parse_goodStyles, .inr ⟨goodRows, hrows, rfl⟩⟩
  · have hread := ((htonesTree twoFiles).2.1 _).2 twoFiles_holdsText.2
    refine (htones _ _ hread).2.2 fun document hdocument => ?_
    rw [parse_badTones] at hdocument
    cases hdocument
    exact ⟨not_noRecords_badTones, not_holdsRows_badTones⟩
  · exact houtlines _ ((houtlinesTree twoFiles).1.2 twoFiles_absent.1)
  · exact hgone _ ((hgoneTree twoFiles).1.2 twoFiles_absent.2)

end Stylebook
