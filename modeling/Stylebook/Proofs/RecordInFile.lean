/-
  Stylebook.Proofs.RecordInFile

  A record is read in one way, whether its text stands alone or as the only one in a data file
  of its kind: in a list under the collection's key, or under a key in the blacklist's groups.
  What is read of the text is the same in both places (`Comes`), repeated keys are settled in
  both, and one function decides what the settled object holds. So both succeed with the same
  record or both fail, with the same wording where an object is not accepted
  (`record_reads_alike_in_file`).
-/

import Stylebook.Proofs.Json.PhraseAccepted
import Stylebook.Proofs.RepeatedKeys

namespace Stylebook

open Json (Value Members Mismatch Comes Phrase OpensObject depthLimit skipGap)

/-! ## Objects in a text -/

namespace Json

variable {α : Type} {check : Members → Except Mismatch α} {text : String} {w : Value}
  {members : Members}

/-- The object in a text is passed to the check once it is settled. -/
theorem parseObject_of_document (h : document text.toList = .ok w)
    (hsettle : w.settle = .object members) :
    parseObject check text = (check members).mapError .mistyped := by
  obtain ⟨rest, hvalue, hend⟩ := document_eq_ok_iff.1 h
  have hskip : value depthLimit (skipGap text.toList) = .ok (w, rest) := by
    rw [value_congr depthLimit (skipGap_skipGap text.toList), hvalue]
  rw [parseObject]
  split
  · next t hgap =>
    obtain ⟨items, rfl⟩ := eq_array_of_skipGap hgap hvalue
    rw [Value.settle] at hsettle
    cases hsettle
  · rw [hskip]
    simp only [hsettle]
    rcases check members with m | a
    · rfl
    · simp only [atEnd_eq_ok_iff.2 hend]
      rfl

end Json

/-! ## Files with one record -/

namespace Kind

variable {k : Kind} {disk : Disk} {directory t : String} {v : Value} {o : Option Value}

/-- A text as the only record of a collection: in a list, or under a key in the groups. -/
def bodyText : (k : Kind) → k.Key → List Char → List Char
  | .style, _, t => '[' :: (t ++ [']'])
  | .tone, _, t => '[' :: (t ++ [']'])
  | .outline, _, t => '[' :: (t ++ [']'])
  | .industry, _, t => '[' :: (t ++ [']'])
  | .blacklist, key, t => '\x7b' :: (Json.writeString key ++ ':' :: (' ' :: t ++ ['\x7d']))

/-- A data file with a text as its only record. -/
def fileOfText (k : Kind) (key : k.Key) (t : String) : String :=
  String.ofList
    ('\x7b' :: (Json.writeString k.dataKey ++ ':' :: (' ' :: k.bodyText key t.toList ++ ['\x7d'])))

example : Kind.blacklist.fileOfText "k" "7" = "\x7b\"categories\": \x7b\"k\": 7\x7d\x7d" := by decide

/-- A value as the only record of a collection. -/
def bodyOfValue : (k : Kind) → k.Key → Value → Value
  | .style, _, v => .array [v]
  | .tone, _, v => .array [v]
  | .outline, _, v => .array [v]
  | .industry, _, v => .array [v]
  | .blacklist, key, v => .object [(key, v)]

/-- A document with a value as its only record. -/
def documentOfValue (k : Kind) (key : k.Key) (v : Value) : Value :=
  .object [(k.dataKey, k.bodyOfValue key v)]

theorem settle_documentOfValue (key : k.Key) (v : Value) :
    (k.documentOfValue key v).settle = k.documentOfValue key v.settle := by
  cases k <;> rfl

theorem listEntries_singleton (key : k.Key) (v : Value) :
    listEntries k key (.array [v]) = (Record.ofValue k v).map fun r => [⟨key, r⟩] := by
  rw [listEntries, List.mapM_cons, List.mapM_nil]
  rcases Record.ofValue k v with m | r
  · rfl
  · rfl

theorem keyedEntries_singleton (key : String) (v : Value) :
    keyedEntries (.object [(key, v)]) = (Record.ofValue .blacklist v).map fun r => [⟨key, r⟩] := by
  rw [keyedEntries, List.mapM_cons, List.mapM_nil]
  rcases Record.ofValue .blacklist v with m | r
  · rfl
  · rfl

/-- A document with one value holds the record in that value. -/
theorem entriesIn_documentOfValue (key : k.Key) (v : Value) :
    k.entriesIn (k.documentOfValue key v) = (Record.ofValue k v).map fun r => [⟨key, r⟩] := by
  have hbody : k.bodyOf? (k.documentOfValue key v) = .ok (some (k.bodyOfValue key v)) := by
    cases k <;> rfl
  rw [entriesIn, hbody]
  show k.entriesOf (k.bodyOfValue key v) = _
  cases k with
  | blacklist => exact keyedEntries_singleton key v
  | _ => exact listEntries_singleton key v

/-- What is read of a text alone is read of it as the only record of a collection. -/
theorem comes_bodyText {depth : Nat} {t u : List Char} {c : Char} (key : k.Key)
    (hfirst : skipGap t = c :: u) (hc : c ≠ ']') (h : Comes (Json.value depth) t o) :
    Comes (Json.value (depth + 1)) (k.bodyText key t) (o.map (k.bodyOfValue key)) := by
  cases k with
  | blacklist => exact Json.comes_object_of_one key (Json.comes_space h)
  | _ => exact Json.comes_array_of_one hfirst hc h

/-- So it is in a data file, where two more levels are open. -/
theorem comes_fileOfText {c : Char} {u : List Char} (key : k.Key)
    (hfirst : skipGap t.toList = c :: u) (hc : c ≠ ']')
    (h : Comes (Json.value 125) t.toList o) :
    Comes (Json.value depthLimit) (k.fileOfText key t).toList (o.map (k.documentOfValue key)) := by
  have hbody := Json.comes_space (comes_bodyText key hfirst hc h)
  have hfile := Json.comes_object_of_one k.dataKey hbody
  rw [Option.map_map] at hfile
  rw [fileOfText, String.toList_ofList]
  exact hfile

/-- A file without a document does not load. -/
theorem exists_load_eq_error {text : String} (hread : disk.read (k.path directory) = .text text)
    (h : ∀ w, Json.document text.toList ≠ .ok w) :
    ∃ fault, k.load disk directory = .error fault := by
  rcases hload : k.load disk directory with fault | es
  · exact ⟨fault, rfl⟩
  · obtain ⟨document, hdocument, -⟩ := parse_eq_ok_iff.1 (((load_of_text hread).1 es).1 hload)
    obtain ⟨w, rest, hvalue, hend, -⟩ := Json.parse_eq_ok_iff.1 hdocument
    exact absurd (Json.document_eq_ok_iff.2 ⟨rest, hvalue, hend⟩) (h w)

/-- A file of one text loads the record in the value that is read of the text alone, and does
    not load if none is read. -/
theorem load_fileOfText {n : Nat} {key : k.Key} (ht : Phrase n t.toList)
    (hread : disk.read (k.path directory) = .text (k.fileOfText key t)) :
    ∃ o, Comes (Json.value 125) t.toList o ∧
      (∀ v, o = some v → k.load disk directory
        = ((Record.ofValue k v.settle).map fun r => [⟨key, r⟩]).mapError
          fun m => .malformed (k.path directory) (.mistyped m)) ∧
      (o = none → ∃ fault, k.load disk directory = .error fault) := by
  obtain ⟨o, ho, -⟩ := ht.comesWithin 125
  obtain ⟨c, u, hfirst, hc⟩ := ht.exists_first
  have hfile := comes_fileOfText key hfirst hc ho
  refine ⟨o, ho, ?_, ?_⟩
  · rintro v rfl
    have hdocument := (Json.document_eq_ok_iff_comes hfile).2 rfl
    rw [load_of_document hread hdocument, settle_documentOfValue, entriesIn_documentOfValue]
  · rintro rfl
    refine exists_load_eq_error hread fun w hw => ?_
    cases (Json.document_eq_ok_iff_comes hfile).1 hw

end Kind

/-! ## A record alone and in its file -/

section Alike

variable {k : Kind} {key : k.Key} {n : Nat} {disk : Disk} {directory t : String}

/-- On a text of few levels, reading does not depend on whether two more are open. -/
theorem document_eq_ok_iff_of_phrase {o : Option Value} (ht : Phrase n t.toList) (hn : n ≤ 125)
    (ho : Comes (Json.value 125) t.toList o) {v : Value} :
    Json.document t.toList = .ok v ↔ o = some v := by
  obtain ⟨o', ho', hwithin⟩ := ht.comesWithin depthLimit
  rw [Json.document_eq_ok_iff_comes ho']
  constructor
  · intro hv
    obtain ⟨rest, hvalue, hend⟩ := ho'.read_iff.1 hv
    have hdepth := Nat.le_trans (hwithin v hv) hn
    exact ho.read_iff.2 ⟨rest, Json.value_of_depth_le 125 hvalue hdepth, hend⟩
  · intro hv
    obtain ⟨rest, hvalue, hend⟩ := ho.read_iff.1 hv
    have hdepth : v.depth ≤ depthLimit :=
      Nat.le_trans (Json.value_depth_le 125 hvalue) (by decide)
    exact ho'.read_iff.2 ⟨rest, Json.value_of_depth_le depthLimit hvalue hdepth, hend⟩

/-- A text without a document holds no record. -/
theorem Record.exists_parse_eq_error (h : ∀ members, Json.parse t ≠ .ok (.object members)) :
    ∃ f, Record.parse k t = .error f := by
  rcases hparse : Record.parse k t with f | r
  · exact ⟨f, rfl⟩
  · obtain ⟨members, hdocument, -⟩ := Record.parse_eq_ok_iff.1 hparse
    exact absurd hdocument (h members)

/-- An object is settled and checked in the same way in both places, or it is read in neither. -/
theorem object_read_alike (ht : Phrase n t.toList) (hobject : OpensObject t.toList)
    (hn : n ≤ 125) (hread : disk.read (k.path directory) = .text (k.fileOfText key t)) :
    (∃ members, Json.parse t = .ok (.object members) ∧
      Record.parse k t = (Record.ofMembers k members).mapError .mistyped ∧
      k.load disk directory = ((Record.ofMembers k members).map fun r => [⟨key, r⟩]).mapError
        fun m => .malformed (k.path directory) (.mistyped m)) ∨
    (∀ v, Json.parse t ≠ .ok v) ∧ (∃ f, Record.parse k t = .error f) ∧
      ∃ fault, k.load disk directory = .error fault := by
  obtain ⟨o, ho, hsome, hnone⟩ := Kind.load_fileOfText ht hread
  have hdocument {v : Value} := document_eq_ok_iff_of_phrase ht hn ho (v := v)
  cases o with
  | none =>
    have hparse : ∀ v, Json.parse t ≠ .ok v := by
      intro v hv
      obtain ⟨w, rest, hvalue, hend, -⟩ := Json.parse_eq_ok_iff.1 hv
      cases hdocument.1 (Json.document_eq_ok_iff.2 ⟨rest, hvalue, hend⟩)
    exact .inr ⟨hparse, Record.exists_parse_eq_error fun members => hparse _, hnone rfl⟩
  | some v =>
    have hv := hdocument.2 rfl
    obtain ⟨rest, hvalue, -⟩ := Json.document_eq_ok_iff.1 hv
    obtain ⟨raw, rfl⟩ := (Json.exists_object_iff_of_value hvalue).2 hobject
    have hload := hsome _ rfl
    refine .inl ⟨_, Json.parse_of_document hv, Json.parseObject_of_document hv rfl, ?_⟩
    exact hload

/-- A text of something else is a record in neither place. -/
theorem no_object_refused (ht : Phrase n t.toList)
    (hobject : ¬ OpensObject t.toList)
    (hread : disk.read (k.path directory) = .text (k.fileOfText key t)) :
    (∃ f, Record.parse k t = .error f) ∧ ∃ fault, k.load disk directory = .error fault := by
  -- However many levels are open, no object is read of the text.
  have hvalue {depth : Nat} {v : Value} {rest : List Char} {members : Members}
      (hread : Json.value depth t.toList = .ok (v, rest)) : v.settle ≠ .object members := by
    intro hsettle
    obtain ⟨raw, hraw, -⟩ := Json.exists_object_of_settle hsettle
    exact hobject ((Json.exists_object_iff_of_value hread).1 ⟨raw, hraw⟩)
  constructor
  · apply Record.exists_parse_eq_error
    intro members hparse
    obtain ⟨w, rest, hw, -, hsettle⟩ := Json.parse_eq_ok_iff.1 hparse
    exact hvalue hw hsettle.symm
  · obtain ⟨o, ho, hsome, hnone⟩ := Kind.load_fileOfText ht hread
    cases o with
    | none => exact hnone rfl
    | some v =>
      obtain ⟨rest, hv, -⟩ := ho.read_iff.1 rfl
      rw [hsome v rfl]
      rcases hr : Record.ofValue k v.settle with m | r
      · exact ⟨_, rfl⟩
      · exact absurd (Record.ofValue_eq_ok_iff.1 hr).1 (hvalue hv)

/-- What a record is read from is an object of the grammar. -/
theorem phrase_of_record {r : Record k} (h : Record.parse k t = .ok r) :
    Phrase depthLimit t.toList ∧ OpensObject t.toList := by
  obtain ⟨members, hparse, -⟩ := Record.parse_eq_ok_iff.1 h
  obtain ⟨w, rest, hvalue, hend, hsettle⟩ := Json.parse_eq_ok_iff.1 hparse
  obtain ⟨raw, hraw, -⟩ := Json.exists_object_of_settle hsettle.symm
  exact ⟨Json.phrase_of_value hvalue hend,
    (Json.exists_object_iff_of_value hvalue).1 ⟨raw, hraw⟩⟩

end Alike

/-- A text is read alike as a record by itself and as the only record in a data file of its
    kind, in the list under the collection's key or under any key in the blacklist's groups. It
    may be any text that the grammar of the format allows, with blank space, escapes and
    repeated keys as they may stand:

    * of an object with at most 125 levels a record is read exactly if the file loads, with
      that record and nothing else;
    * if its members, once repeated keys are settled, are not accepted, both say so in the same
      words, without a place in the text;
    * of anything but an object no record is read, and the file does not load.

    No record is read of a text outside the grammar. -/
theorem record_reads_alike_in_file {k : Kind} (key : k.Key) {disk : Disk} {directory t : String}
    (hread : disk.read (k.path directory) = .text (k.fileOfText key t)) :
    (∀ n, n ≤ 125 → Phrase n t.toList → OpensObject t.toList →
      (∀ r, Record.parse k t = .ok r ↔ k.load disk directory = .ok [⟨key, r⟩]) ∧
      (∀ es, k.load disk directory = .ok es → ∃ r, es = [⟨key, r⟩]) ∧
      ∀ members m, Json.parse t = .ok (.object members) → Record.ofMembers k members = .error m →
        ∃ f fault, Record.parse k t = .error f ∧ k.load disk directory = .error fault ∧
          f.message = m.message ∧ fault.cause = m.message) ∧
    (∀ n, Phrase n t.toList → ¬ OpensObject t.toList →
      (∃ f, Record.parse k t = .error f) ∧ ∃ fault, k.load disk directory = .error fault) ∧
    ∀ r, Record.parse k t = .ok r → Phrase depthLimit t.toList ∧ OpensObject t.toList := by
  refine ⟨fun n hn ht hobject => ?_, fun n ht hobject => no_object_refused ht hobject hread,
    fun r => phrase_of_record⟩
  rcases object_read_alike ht hobject hn hread with
    ⟨members, hdocument, hparse, hload⟩ | ⟨hdocument, ⟨f, hparse⟩, fault, hload⟩
  · have hmembers {members' : Members} (h : Json.parse t = .ok (.object members')) :
        members' = members := by
      rw [hdocument] at h
      cases h
      rfl
    rw [hparse, hload]
    rcases hr : Record.ofMembers k members with m | r
    · -- The members are not accepted.
      refine ⟨fun r => ⟨nofun, nofun⟩, nofun, fun members' m' hdocument' hm' => ?_⟩
      rw [hmembers hdocument', hr] at hm'
      cases hm'
      exact ⟨_, _, rfl, rfl, rfl, rfl⟩
    · refine ⟨fun r' => ?_, fun es hes => ?_, fun members' m' hdocument' hm' => ?_⟩
      · constructor
        · rintro ⟨⟩
          rfl
        · rintro ⟨⟩
          rfl
      · cases hes
        exact ⟨r, rfl⟩
      · rw [hmembers hdocument', hr] at hm'
        cases hm'
  · -- Nothing is read of the text at all.
    rw [hparse, hload]
    exact ⟨fun r => ⟨nofun, nofun⟩, nofun, fun members m hm => absurd hm (hdocument _)⟩

/-! ## Three texts -/

/-- An industry with a repeated key, whose earlier value would not be accepted. -/
def repeatingIndustry : String := " \x7b\"topics\":true,\"id\":\"\\u0041\",\"topics\":[\"a\"]\x7d\n"

theorem value_repeatingIndustry : Json.value 2 repeatingIndustry.toList = .ok
    (.object [("topics", .bool true), ("id", .string "A"), ("topics", .array [.string "a"])],
      ['\n']) := by
  simp only [repeatingIndustry, String.reduceToList]
  rfl

/-- A group with two fields of a wrong type. -/
def refusedGroup : String := "\x7b\"phrases\":\x7b\x7d,\"description\":[]\x7d"

theorem value_refusedGroup : Json.value 2 refusedGroup.toList = .ok
    (.object [("phrases", .object []), ("description", .array [])], []) := by
  simp only [refusedGroup, String.reduceToList]
  rfl

/-- A number beyond the largest float. -/
theorem phrase_outOfRange : Phrase 0 "1e999".toList := by
  have hunsigned : Json.Unsigned (['1'] ++ ([] ++ ['e', '9', '9', '9'])) :=
    .mk (.inr ⟨'1', [], rfl, by decide, List.forall_mem_singleton.2 rfl⟩) (.inl rfl)
      (.inr ⟨'e', [], ['9', '9', '9'], rfl, rfl, .inl rfl, List.cons_ne_nil _ _,
        List.all_eq_true.1 rfl⟩)
  exact .number hunsigned

/-- The industry is read alone and in its file; the group is refused for its first field, with
    a quote in its key or without; the number is refused as well. -/
theorem record_reads_alike_in_file_sample :
    (∃ r, Kind.industry.load (diskOf (Kind.industry.fileOfText () repeatingIndustry)) "data"
      = .ok [⟨(), r⟩] ∧ r.fields = (⟨"A", "", ["a"], [], ""⟩ : Industry)) ∧
    (∃ f fault, Record.parse .blacklist refusedGroup = .error f ∧
      Kind.blacklist.load (diskOf (Kind.blacklist.fileOfText "\"" refusedGroup)) "data"
        = .error fault ∧
      f.message = "invalid type: map, expected a sequence" ∧ fault.cause = f.message) ∧
    ∃ fault, Kind.tone.load (diskOf (Kind.tone.fileOfText () "1e999")) "data" = .error fault := by
  have hlimit {text : String} {v : Value} {rest : List Char}
      (h : Json.value 2 text.toList = .ok (v, rest)) (hend : skipGap rest = []) :
      Json.document text.toList = .ok v :=
    Json.document_eq_ok_iff.2 ⟨rest, Json.value_of_depth_le depthLimit h
      (Nat.le_trans (Json.value_depth_le 2 h) (by decide)), hend⟩
  refine ⟨?_, ?_, ?_⟩
  · have hread : (diskOf (Kind.industry.fileOfText () repeatingIndustry)).read
        (Kind.industry.path "data") = .text (Kind.industry.fileOfText () repeatingIndustry) := rfl
    obtain ⟨hobject, -, -⟩ := record_reads_alike_in_file (k := .industry) () hread
    obtain ⟨hboth, -, -⟩ := hobject 2 (by decide)
      (Json.phrase_of_value value_repeatingIndustry rfl)
      ((Json.exists_object_iff_of_value value_repeatingIndustry).1 ⟨_, rfl⟩)
    have hdocument := hlimit value_repeatingIndustry rfl
    exact ⟨_, (hboth _).1 (Json.parseObject_of_document hdocument rfl), rfl⟩
  · have hread : (diskOf (Kind.blacklist.fileOfText "\"" refusedGroup)).read
        (Kind.blacklist.path "data") = .text (Kind.blacklist.fileOfText "\"" refusedGroup) := rfl
    obtain ⟨hobject, -, -⟩ := record_reads_alike_in_file (k := .blacklist) "\"" hread
    obtain ⟨-, -, hrefused⟩ := hobject 2 (by decide)
      (Json.phrase_of_value value_refusedGroup rfl)
      ((Json.exists_object_iff_of_value value_refusedGroup).1 ⟨_, rfl⟩)
    have hparse := Json.parse_of_document (hlimit value_refusedGroup rfl)
    obtain ⟨f, fault, hf, hfault, hmessage, hcause⟩ := hrefused _ _ hparse rfl
    exact ⟨f, fault, hf, hfault, hmessage, hcause.trans hmessage.symm⟩
  · have hread : (diskOf (Kind.tone.fileOfText () "1e999")).read
        (Kind.tone.path "data") = .text (Kind.tone.fileOfText () "1e999") := rfl
    obtain ⟨-, hother, -⟩ := record_reads_alike_in_file (k := .tone) () hread
    refine (hother 0 phrase_outOfRange ?_).2
    rintro ⟨u, hu⟩
    simp only [String.reduceToList] at hu
    cases hu

end Stylebook
