/-
  Stylebook.Proofs.MemberOrder

  The order in which a record has its members does not matter, but for writing it as JSON.
  A record is accepted by its members and has its fields by look-ups, so an object with the
  same members in another order is accepted alike and has the same fields
  (`SameMembers.fieldsOf_eq`). What is searched and shown of an entry is its key and its
  fields (`Entry.fieldsOnly`); so two data files whose records have the same members load
  alike, queries find their matches at the same places, and the texts of both reports are
  the same (`member_order_does_not_matter`). As JSON, either is written as it stands in its
  own file.
-/

import Stylebook.Invocation
import Stylebook.Proofs.Json.Literals
import Stylebook.Proofs.Json.PhraseAccepted
import Stylebook.Proofs.Json.Reordered
import Stylebook.Proofs.RepeatedKeys

namespace Stylebook

open Json (Value Members MemberText SameMembers Turned Inside TurnedText InsideText ReadAlike)

/-! ## Objects with the same members -/

namespace Json.SameMembers

variable {k : Kind} {members members' : Members}

/-- The same stands under each key. -/
theorem lookup_eq (h : SameMembers members members') (key : String) :
    members.lookup key = members'.lookup key := by
  refine Option.ext fun v => ?_
  rw [lookup_eq_some_iff_mem h.distinct, lookup_eq_some_iff_mem h.symm.distinct, h.perm.mem_iff]

theorem accepts_iff (h : SameMembers members members') :
    k.Accepts members ↔ k.Accepts members' := by
  simp only [Kind.Accepts, h.perm.mem_iff]

theorem fieldsOf_eq (h : SameMembers members members') :
    k.fieldsOf members = k.fieldsOf members' := by
  cases k
  all_goals
    simp only [Kind.fieldsOf, textAt, textsAt, shownAt, h.lookup_eq]
    rfl

end Json.SameMembers

/-! ## What is shown of an entry -/

section FieldsOnly

variable {k : Kind}

/-- An entry without the object that its fields were read from. -/
def Entry.fieldsOnly (e : Entry k) : Entry k := ⟨e.key, e.record.fields, []⟩

/-- A match without the object of its entry. -/
def Match.fieldsOnly (m : Match k) : Match k := ⟨m.kind, m.category, m.entry.fieldsOnly⟩

/-- A catalog without the objects of its entries. -/
def Catalog.fieldsOnly (c : Catalog) : Catalog := ⟨fun k => (c.entries k).map Entry.fieldsOnly⟩

theorem holds_fieldsOnly (needle : List Char) :
    Entry.holds needle ∘ Entry.fieldsOnly = Entry.holds (k := k) needle := rfl

theorem placesFound_fieldsOnly (es : List (Entry k)) (query : String) :
    placesFound (es.map Entry.fieldsOnly) query = placesFound es query := by
  rw [placesFound, List.findIdxs_map, holds_fieldsOnly, placesFound]

theorem searchEntries_fieldsOnly (es : List (Entry k)) (query : String) :
    searchEntries (es.map Entry.fieldsOnly) query
      = (searchEntries es query).map Match.fieldsOnly := by
  simp only [searchEntries, List.filter_map, holds_fieldsOnly, List.map_map]
  rfl

end FieldsOnly

namespace Report

theorem foundSection_fieldsOnly (c : Catalog) (query : String) (k : Kind) :
    foundSection (c.fieldsOnly.search query) k = foundSection (c.search query) k := by
  have hmatched : (c.fieldsOnly.search query).matched k
      = ((c.search query).matched k).map Match.fieldsOnly :=
    searchEntries_fieldsOnly (c.entries k) query
  rw [foundSection, foundSection, hmatched, List.isEmpty_map, List.flatMap_map]
  rfl

theorem total_fieldsOnly (c : Catalog) (query : String) :
    (c.fieldsOnly.search query).total = (c.search query).total := by
  simp only [Catalog.search, Catalog.fieldsOnly, searchEntries_fieldsOnly, List.length_map]

theorem findingText_fieldsOnly (c : Catalog) (query : String) :
    findingText (c.fieldsOnly.search query) = findingText (c.search query) := by
  have hsections : foundSection (c.fieldsOnly.search query) = foundSection (c.search query) :=
    funext (foundSection_fieldsOnly c query)
  simp only [findingText, foundReport, Finding.isEmpty, total_fieldsOnly, hsections]
  rfl

theorem listing_fieldsOnly (c : Catalog) : listing c.fieldsOnly = listing c := by
  have hcount (k : Kind) : c.fieldsOnly.count k = c.count k := List.length_map _
  have htable (k : Kind) : listTable c.fieldsOnly k = listTable c k := by
    have hentries : c.fieldsOnly.entries k = (c.entries k).map Entry.fieldsOnly := rfl
    rw [listTable, listTable, hcount, hentries, List.isEmpty_map, List.flatMap_map]
    rfl
  rw [listing, listing, summary, summary, funext htable]
  simp only [hcount]

end Report

/-- No text that is printed tells an entry from its fields. -/
theorem render_fieldsOnly (task : Invocation.Task) (c : Catalog) :
    Invocation.render task false c.fieldsOnly = Invocation.render task false c := by
  cases task with
  | listing => exact congrArg Text.unlines (Report.listing_fieldsOnly c)
  | search query => exact Report.findingText_fieldsOnly c query

/-! ## Files with the same members in their records -/

/-- What is read of two files is the same; or both hold documents that are the same but for
    the order of the members in their records, two levels below; or neither is a document. -/
inductive SameOutcome : ReadOutcome → ReadOutcome → Prop where
  | same (outcome : ReadOutcome) : SameOutcome outcome outcome
  | documents {content content' : String} {document document' : Value} :
      Json.parse content = .ok document → Json.parse content' = .ok document' →
      Inside (Inside Turned) document document' → SameOutcome (.text content) (.text content')
  | unreadable {content content' : String} : (∀ v, Json.parse content ≠ .ok v) →
      (∀ v, Json.parse content' ≠ .ok v) → SameOutcome (.text content) (.text content')

/-- Texts in which the members of records change places are such files. -/
theorem sameOutcome_of_texts {content content' : String}
    (h : InsideText (InsideText TurnedText) content.toList content'.toList) :
    SameOutcome (.text content) (.text content') := by
  have halike : ReadAlike (Inside (Inside Turned)) content.toList content'.toList :=
    h.readAlike fun _ _ hbody => hbody.readAlike fun _ _ hrecord => hrecord.readAlike
  rcases halike.document with ⟨w, w', hw, hw', hdocuments⟩ | ⟨hnone, hnone'⟩
  · refine .documents (Json.parse_of_document hw) (Json.parse_of_document hw') ?_
    exact hdocuments.settle fun _ _ hbody => hbody.settle fun _ _ => Turned.settle
  · have hparse {text : String} (h : ∀ w, Json.document text.toList ≠ .ok w) (v : Value) :
        Json.parse text ≠ .ok v := by
      intro hv
      obtain ⟨w, rest, hvalue, hend, -⟩ := Json.parse_eq_ok_iff.1 hv
      exact h w (Json.document_eq_ok_iff.2 ⟨rest, hvalue, hend⟩)
    exact .unreadable (hparse hnone) (hparse hnone')

/-! ## What is read of them -/

section Images

variable {ε ε' α β γ : Type}

/-- The image of what was read; nothing of a fault. -/
def imageOf? (f : α → γ) (result : Except ε α) : Option γ := result.toOption.map f

/-- The image of a traversal is the traversal of the images. -/
theorem imageOf?_mapM (f : α → γ) (read : β → Except ε α) (bs : List β) :
    imageOf? (List.map f) (bs.mapM read) = bs.mapM fun b => imageOf? f (read b) := by
  induction bs with
  | nil => rfl
  | cons b bs ih =>
    rw [List.mapM_cons, List.mapM_cons, ← ih]
    rcases read b with fault | a
    · rfl
    · rcases bs.mapM read with fault | as
      · rfl
      · rfl

/-- So two traversals have the same image if they have it at each element. -/
theorem imageOf?_mapM_congr {f : α → γ} {read : β → Except ε α} {bs bs' : List β}
    (h : List.Forall₂ (fun b b' => imageOf? f (read b) = imageOf? f (read b')) bs bs') :
    imageOf? (List.map f) (bs.mapM read) = imageOf? (List.map f) (bs'.mapM read) := by
  rw [imageOf?_mapM, imageOf?_mapM]
  induction h with
  | nil => rfl
  | cons hhead _ ih => rw [List.mapM_cons, List.mapM_cons, hhead, ih]

theorem exists_ok_iff_of_image {f : α → γ} {result : Except ε α} {result' : Except ε' α}
    (h : imageOf? f result = imageOf? f result') :
    (∃ a, result = .ok a) ↔ ∃ a, result' = .ok a := by
  cases result with
  | error =>
    cases result' with
    | error => simp
    | ok => cases h
  | ok =>
    cases result' with
    | error => cases h
    | ok => simp

theorem eq_of_image {f : α → γ} {result : Except ε α} {result' : Except ε' α} {a a' : α}
    (h : imageOf? f result = imageOf? f result') (ha : result = .ok a) (ha' : result' = .ok a') :
    f a = f a' := by
  rw [ha, ha'] at h
  exact Option.some.inj h

end Images

section Reading

variable {k : Kind}

theorem imageOf?_ofValue {v v' : Value} (h : Turned v v') (key : k.Key) :
    imageOf? Entry.fieldsOnly ((Record.ofValue k v).map fun r => (⟨key, r⟩ : Entry k))
      = imageOf? Entry.fieldsOnly ((Record.ofValue k v').map fun r => (⟨key, r⟩ : Entry k)) := by
  cases h with
  | same => rfl
  | @members members members' hsame =>
    have haccepts := hsame.accepts_iff (k := k)
    rw [← Kind.mismatch?_eq_none_iff, ← Kind.mismatch?_eq_none_iff] at haccepts
    have hfields := hsame.fieldsOf_eq (k := k)
    rw [Record.ofValue, Record.ofValue, Record.ofMembers, Record.ofMembers]
    rcases hmismatch : k.mismatch? members with _ | m
    · rw [haccepts.1 hmismatch]
      show some (Entry.mk key (Record.mk (k.fieldsOf members) [])) = some _
      rw [hfields]
      rfl
    · rcases hmismatch' : k.mismatch? members' with _ | m'
      · rw [haccepts.2 hmismatch'] at hmismatch
        cases hmismatch
      · rfl

/-- What stands under a collection's key holds entries with the same fields, or none. -/
theorem imageOf?_entriesOf {body body' : Value} (h : Inside Turned body body') :
    imageOf? (List.map Entry.fieldsOnly) (k.entriesOf body)
      = imageOf? (List.map Entry.fieldsOnly) (k.entriesOf body') := by
  have hlist (key : k.Key) : imageOf? (List.map Entry.fieldsOnly) (listEntries k key body)
      = imageOf? (List.map Entry.fieldsOnly) (listEntries k key body') := by
    cases h with
    | same => rfl
    | array hitems => exact imageOf?_mapM_congr (hitems.imp fun _ _ hv => imageOf?_ofValue hv key)
    | object => rfl
  cases k with
  | blacklist =>
    cases h with
    | same => rfl
    | array => rfl
    | object hmembers =>
      refine imageOf?_mapM_congr (hmembers.imp fun m m' hm => ?_)
      obtain ⟨key, v⟩ := m
      obtain ⟨key', v'⟩ := m'
      obtain ⟨rfl, hv⟩ := hm
      exact imageOf?_ofValue (k := .blacklist) hv key
  | _ => exact hlist ()

theorem imageOf?_entriesIn {document document' : Value}
    (h : Inside (Inside Turned) document document') :
    imageOf? (List.map Entry.fieldsOnly) (k.entriesIn document)
      = imageOf? (List.map Entry.fieldsOnly) (k.entriesIn document') := by
  cases h with
  | same => rfl
  | array hitems =>
    -- Of the lists, only the empty one is a document without records.
    cases hitems with
    | nil => rfl
    | cons => rfl
  | @object members members' hmembers =>
    have hbodies := Json.rel_lookup hmembers k.dataKey
    simp only [Kind.entriesIn, Kind.bodyOf?]
    generalize members.lookup k.dataKey = body? at hbodies ⊢
    generalize members'.lookup k.dataKey = body'? at hbodies ⊢
    cases hbodies with
    | none => rfl
    | some hbody =>
      cases hbody with
      | same => rfl
      | array hitems => exact imageOf?_entriesOf (.array hitems)
      | object hmembers => exact imageOf?_entriesOf (.object hmembers)

theorem imageOf?_parse {content : String} {document : Value}
    (hparse : Json.parse content = .ok document) :
    imageOf? (List.map Entry.fieldsOnly) (k.parse content)
      = imageOf? (List.map Entry.fieldsOnly) (k.entriesIn document) := by
  rw [Kind.parse, hparse]
  rcases hentries : k.entriesIn document with m | es
  · simp only [hentries]
    rfl
  · simp only [hentries]
    rfl

theorem imageOf?_parse_eq_none {content : String} (h : ∀ v, Json.parse content ≠ .ok v) :
    imageOf? (List.map Entry.fieldsOnly) (k.parse content) = none := by
  rw [Kind.parse]
  rcases hparse : Json.parse content with fault | v
  · rfl
  · exact absurd hparse (h v)

theorem imageOf?_ofOutcome_text (path content : String) :
    imageOf? (List.map Entry.fieldsOnly) (k.ofOutcome path (.text content))
      = imageOf? (List.map Entry.fieldsOnly) (k.parse content) := by
  rw [Kind.ofOutcome]
  rcases k.parse content with fault | es
  · rfl
  · rfl

/-- Files with the same members in their records load entries with the same fields, or not at
    all. -/
theorem imageOf?_load {disk disk' : Disk} {directory directory' : String}
    (h : SameOutcome (disk.read (k.path directory)) (disk'.read (k.path directory'))) :
    imageOf? (List.map Entry.fieldsOnly) (k.load disk directory)
      = imageOf? (List.map Entry.fieldsOnly) (k.load disk' directory') := by
  rw [Kind.load, Kind.load]
  generalize disk.read (k.path directory) = outcome at h ⊢
  generalize disk'.read (k.path directory') = outcome' at h ⊢
  cases h with
  | same =>
    -- The paths differ, and are named in faults only.
    cases outcome with
    | missing => rfl
    | failed => rfl
    | text content => rw [imageOf?_ofOutcome_text, imageOf?_ofOutcome_text]
  | documents hparse hparse' hdocuments =>
    rw [imageOf?_ofOutcome_text, imageOf?_ofOutcome_text, imageOf?_parse hparse,
      imageOf?_parse hparse', imageOf?_entriesIn hdocuments]
  | unreadable hnone hnone' =>
    rw [imageOf?_ofOutcome_text, imageOf?_ofOutcome_text, imageOf?_parse_eq_none hnone,
      imageOf?_parse_eq_none hnone']

end Reading

/-! ## Catalogs of such files -/

section Catalogs

variable {disk disk' : Disk} {directory directory' : String} {kinds : List Kind}

theorem exists_load_iff_of_sameOutcome
    (h : ∀ k ∈ kinds, SameOutcome (disk.read (k.path directory)) (disk'.read (k.path directory'))) :
    (∃ c, Catalog.load disk directory kinds = .ok c) ↔
      ∃ c, Catalog.load disk' directory' kinds = .ok c := by
  rw [Catalog.exists_load_iff, Catalog.exists_load_iff]
  exact forall₂_congr fun k hk => exists_ok_iff_of_image (imageOf?_load (h k hk))

/-- The catalogs that are loaded differ in the objects of their entries only. -/
theorem fieldsOnly_eq_of_load {c c' : Catalog}
    (h : ∀ k ∈ kinds, SameOutcome (disk.read (k.path directory)) (disk'.read (k.path directory')))
    (hload : Catalog.load disk directory kinds = .ok c)
    (hload' : Catalog.load disk' directory' kinds = .ok c') : c.fieldsOnly = c'.fieldsOnly := by
  refine congrArg Catalog.mk (funext fun k => ?_)
  obtain ⟨hin, hout⟩ := Catalog.load_eq_ok_iff.1 hload k
  obtain ⟨hin', hout'⟩ := Catalog.load_eq_ok_iff.1 hload' k
  by_cases hk : k ∈ kinds
  · exact eq_of_image (imageOf?_load (h k hk)) (hin hk) (hin' hk)
  · rw [hout hk, hout' hk]

end Catalogs

/-- The order in which records have their members, for every kind:

    * objects with the same members, no key twice, are both accepted or both refused; if they
      are accepted, the fields are equal, and each record is written in the order of its own
      object;
    * texts of files in which members of records change places hold documents that are the
      same but for that order, or no document on either side;
    * data files that are the same but for that order, some of which may be missing or
      unreadable on both sides, load as a catalog or fail alike; if they load, every query
      finds its matches at the same places, and the texts of a search and of the listing are
      the same;
    * what was loaded from a file is written as what stands there, in the file's own order. -/
theorem member_order_does_not_matter :
    (∀ (k : Kind) (members members' : Members), SameMembers members members' →
      ((∃ r, Record.ofMembers k members = .ok r) ↔ ∃ r, Record.ofMembers k members' = .ok r) ∧
      ∀ r r', Record.ofMembers k members = .ok r → Record.ofMembers k members' = .ok r' →
        r.fields = r'.fields ∧ r.toJson = .object members ∧ r'.toJson = .object members') ∧
    (∀ content content' : String,
      InsideText (InsideText TurnedText) content.toList content'.toList →
        SameOutcome (.text content) (.text content')) ∧
    (∀ (disk disk' : Disk) (directory directory' : String) (kinds : List Kind),
      (∀ k ∈ kinds,
        SameOutcome (disk.read (k.path directory)) (disk'.read (k.path directory'))) →
      ((∃ c, Catalog.load disk directory kinds = .ok c) ↔
        ∃ c, Catalog.load disk' directory' kinds = .ok c) ∧
      ∀ c c', Catalog.load disk directory kinds = .ok c →
        Catalog.load disk' directory' kinds = .ok c' →
        (∀ k query, placesFound (c.entries k) query = placesFound (c'.entries k) query) ∧
        ∀ task, Invocation.render task false c = Invocation.render task false c') ∧
    ∀ (k : Kind) (disk : Disk) (directory content : String) (document body : Value)
      (es : List (Entry k)), disk.read (k.path directory) = .text content →
      Json.parse content = .ok document → k.bodyOf? document = .ok (some body) →
      k.load disk directory = .ok es → k.entriesJson es = body := by
  refine ⟨?_, fun _ _ => sameOutcome_of_texts, ?_, ?_⟩
  · intro k members members' hsame
    constructor
    · rw [Record.exists_ofMembers_eq_ok_iff, Record.exists_ofMembers_eq_ok_iff]
      exact hsame.accepts_iff
    · intro r r' hr hr'
      obtain ⟨-, rfl⟩ := Record.ofMembers_eq_ok_iff.1 hr
      obtain ⟨-, rfl⟩ := Record.ofMembers_eq_ok_iff.1 hr'
      exact ⟨hsame.fieldsOf_eq, rfl, rfl⟩
  · intro disk disk' directory directory' kinds hsame
    refine ⟨exists_load_iff_of_sameOutcome hsame, fun c c' hload hload' => ?_⟩
    have hfields := fieldsOnly_eq_of_load hsame hload hload'
    constructor
    · intro k query
      have hentries : (c.entries k).map Entry.fieldsOnly = (c'.entries k).map Entry.fieldsOnly :=
        congrArg (Catalog.entries · k) hfields
      rw [← placesFound_fieldsOnly, hentries, placesFound_fieldsOnly]
    · intro task
      rw [← render_fieldsOnly, hfields, render_fieldsOnly]
  · intro k disk directory content document body es hread hparse hbody hload
    have htext := ((Kind.load_of_text hread).1 es).1 hload
    obtain ⟨_, hdocument, hentries⟩ := Kind.parse_eq_ok_iff.1 htext
    rw [hparse] at hdocument
    cases hdocument
    rw [Kind.entriesIn, hbody] at hentries
    exact Kind.entriesJson_of_entriesOf hentries

/-! ## One tone in two orders -/

section Sample

/-- The members of a tone. -/
def plainTone : Members := [("id", .number (.int 7)), ("name", .string "Warm"), ("x", .null)]

/-- The same members in another order. -/
def turnedTone : Members := [("x", .null), ("name", .string "Warm"), ("id", .number (.int 7))]

theorem sameMembers_tones : SameMembers plainTone turnedTone where
  distinct := by decide
  perm := (List.reverse_perm plainTone).symm

/-- A file with the one tone. -/
def plainFile : String := "\x7b\"tones\":[\x7b\"id\":7,\"name\":\"Warm\",\"x\":null\x7d]\x7d"

/-- A file with the other one. -/
def turnedFile : String := "\x7b\"tones\":[\x7b\"x\":null,\"name\":\"Warm\",\"id\":7\x7d]\x7d"

theorem parse_plainFile :
    Json.parse plainFile = .ok (.object [("tones", .array [.object plainTone])]) := by
  simp only [Json.parse, plainFile, String.reduceToList]
  rfl

theorem parse_turnedFile :
    Json.parse turnedFile = .ok (.object [("tones", .array [.object turnedTone])]) := by
  simp only [Json.parse, turnedFile, String.reduceToList]
  rfl

/-- A member without blank space whose key has no escapes. -/
def tightMember (key value : List Char)
    (h : key.all fun c => c ≠ '"' ∧ c ≠ '\\' ∧ 0x20 ≤ c.toNat) : MemberText where
  before := []
  key := key
  between := []
  value := value
  gap_before := Json.gap_nil
  quotation_key := by
    induction key with
    | nil => exact .nil
    | cons c key ih =>
      rw [List.all_cons, Bool.and_eq_true, decide_eq_true_iff] at h
      obtain ⟨⟨hquote, hslash, hcode⟩, hkey⟩ := h
      exact .plain hquote hslash hcode (ih hkey)
  gap_between := Json.gap_nil

/-- The identifier of the tone in its file. -/
def idText : MemberText := tightMember ['i', 'd'] ['7'] rfl

/-- The name of the tone in its file. -/
def nameText : MemberText :=
  tightMember ['n', 'a', 'm', 'e'] ['"', 'W', 'a', 'r', 'm', '"'] rfl

/-- The member of the tone that no field is read from. -/
def unreadText : MemberText := tightMember ['x'] ['n', 'u', 'l', 'l'] rfl

theorem turnedText_tones : TurnedText (Json.objectText idText [nameText, unreadText])
    (Json.objectText unreadText [nameText, idText]) := by
  have hread : Json.value 1 (Json.objectText idText [nameText, unreadText])
      = .ok (.object plainTone, []) := rfl
  refine .members (n := 1) (fun x hx => ?_) (List.reverse_perm _).symm
    fun depth members rest hmembers => ?_
  · have hvalue : ∃ v, Json.value 1 x.value = .ok (v, []) := by
      obtain rfl | rfl | rfl : x = idText ∨ x = nameText ∨ x = unreadText := by simpa using hx
      · exact ⟨.number (.int 7), rfl⟩
      · exact ⟨.string "Warm", rfl⟩
      · exact ⟨.null, rfl⟩
    obtain ⟨v, hv⟩ := hvalue
    exact Json.phrase_of_value hv rfl
  · -- With the levels of both, the two readings are one.
    have hdepth := Json.value_depth_le depth hmembers
    have hboth := Json.value_of_depth_le (depth + 1) hmembers (by omega)
    rw [Json.value_of_depth_le (depth + 1) hread (Nat.le_trans (Json.value_depth_le 1 hread)
      (Nat.le_add_left 1 depth))] at hboth
    cases hboth
    exact sameMembers_tones.distinct

theorem insideText_files :
    InsideText (InsideText TurnedText) plainFile.toList turnedFile.toList := by
  have hbody : InsideText TurnedText
      (Json.arrayText (Json.objectText idText [nameText, unreadText]) [])
      (Json.arrayText (Json.objectText unreadText [nameText, idText]) []) :=
    @InsideText.array TurnedText (_, _) [] (List.forall_mem_singleton.2 turnedText_tones)
  have hfile := @InsideText.object (InsideText TurnedText)
    (tightMember ['t', 'o', 'n', 'e', 's'] _ rfl, _) [] (List.forall_mem_singleton.2 hbody)
  simp only [plainFile, turnedFile, String.reduceToList]
  exact hfile

/-- The tone is found and listed alike from both files, and each is written in its own order. -/
theorem member_order_does_not_matter_sample :
    (∃ r r', Record.ofMembers .tone plainTone = .ok r ∧ Record.ofMembers .tone turnedTone = .ok r' ∧
      r.fields = r'.fields ∧ r.toJson = .object plainTone ∧ r'.toJson = .object turnedTone) ∧
    ∃ c c', Catalog.load (diskOf plainFile) "a" [.tone] = .ok c ∧
      Catalog.load (diskOf turnedFile) "b" [.tone] = .ok c' ∧
      placesFound (c.entries .tone) "WARM" = placesFound (c'.entries .tone) "WARM" ∧
      Invocation.render .listing false c = Invocation.render .listing false c' ∧
      Kind.tone.entriesJson (c'.entries .tone) = .array [.object turnedTone] := by
  obtain ⟨hobjects, hcontents, hfiles, hwritten⟩ := member_order_does_not_matter
  have hsame : ∀ k ∈ [Kind.tone], SameOutcome ((diskOf plainFile).read (k.path "a"))
      ((diskOf turnedFile).read (k.path "b")) :=
    List.forall_mem_singleton.2 (hcontents _ _ insideText_files)
  constructor
  · obtain ⟨hiff, hfields⟩ := hobjects .tone _ _ sameMembers_tones
    obtain ⟨r', hr'⟩ := hiff.1 ⟨_, rfl⟩
    exact ⟨_, r', rfl, hr', hfields _ r' rfl hr'⟩
  · have hplain : Kind.tone.load (diskOf plainFile) "a"
        = .ok [Kind.tone.entryOf ((), plainTone)] :=
      Kind.load_eq_ok_iff.2 (.inr ⟨plainFile, rfl,
        Kind.parse_eq_ok_iff.2 ⟨_, parse_plainFile, rfl⟩⟩)
    obtain ⟨c, hload⟩ := Catalog.exists_load_iff.2 (List.forall_mem_singleton.2 ⟨_, hplain⟩)
    obtain ⟨hiff, hequal⟩ := hfiles _ _ "a" "b" [.tone] hsame
    obtain ⟨c', hload'⟩ := hiff.1 ⟨_, hload⟩
    obtain ⟨hplaces, htexts⟩ := hequal _ c' hload hload'
    have htone : Kind.tone.load (diskOf turnedFile) "b" = .ok (c'.entries .tone) :=
      (Catalog.load_eq_ok_iff.1 hload' .tone).1 List.mem_cons_self
    exact ⟨c, c', hload, hload', hplaces .tone "WARM", htexts .listing,
      hwritten .tone _ "b" turnedFile _ _ _ rfl parse_turnedFile rfl htone⟩

end Sample

end Stylebook
