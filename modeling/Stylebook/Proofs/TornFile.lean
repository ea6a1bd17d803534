/-
  Stylebook.Proofs.TornFile

  A data file that was cut off, at any byte, does not load as something else. A document
  that is not a number ends where it ends: behind it a longer text can only have blank
  space, and anything else is refused as trailing characters (`Json.parse_append_eq_ok_iff`,
  `Json.exists_parse_append_eq_error`). No number is the document of a data file, and a cut
  inside a character is no text. So a file and a longer one that both load hold the same
  collection (`torn_file_loads_whole`).
-/

import Stylebook.Proofs.Disk
import Stylebook.Proofs.Loading

namespace Stylebook

open Json (Value isGap)

/-! ## Documents and longer texts -/

namespace Json

variable {text longer : String} {rest : List Char} {v : Value}

/-- A longer text starts with the same document, which is followed by the same text and
    what was added. -/
theorem value_of_parse_append (h : parse text = .ok v) (hnumber : ∀ n, v ≠ .number n)
    (hlonger : longer.toList = text.toList ++ rest) :
    ∃ w spare, value depthLimit longer.toList = .ok (w, spare ++ rest) ∧
      skipGap spare = [] ∧ v = w.settle := by
  obtain ⟨w, spare, hw, hspare, rfl⟩ := parse_eq_ok_iff.1 h
  refine ⟨w, spare, ?_, hspare, rfl⟩
  rw [hlonger]
  refine value_append depthLimit rest hw ?_
  rintro ⟨n, rfl⟩
  exact absurd rfl (hnumber n)

theorem skipGap_spare_append {spare : List Char} (h : skipGap spare = []) :
    skipGap (spare ++ rest) = skipGap rest :=
  skipGap_append (skipGap_eq_nil_iff.1 h)

/-- A text that goes on behind a document is a document if it goes on with blank space,
    and then it is the same one. -/
theorem parse_append_eq_ok_iff (h : parse text = .ok v) (hnumber : ∀ n, v ≠ .number n)
    (hlonger : longer.toList = text.toList ++ rest) {v' : Value} :
    parse longer = .ok v' ↔ (∀ c ∈ rest, isGap c = true) ∧ v' = v := by
  obtain ⟨w, spare, hw, hspare, rfl⟩ := value_of_parse_append h hnumber hlonger
  rw [← skipGap_eq_nil_iff, ← skipGap_spare_append hspare]
  constructor
  · intro hlong
    obtain ⟨w', rest', hw', hrest', rfl⟩ := parse_eq_ok_iff.1 hlong
    rw [hw] at hw'
    cases hw'
    exact ⟨hrest', rfl⟩
  · rintro ⟨hrest, rfl⟩
    exact parse_eq_ok_iff.2 ⟨w, _, hw, hrest, rfl⟩

/-- A text that goes on in another way has trailing characters. -/
theorem exists_parse_append_eq_error (h : parse text = .ok v) (hnumber : ∀ n, v ≠ .number n)
    (hlonger : longer.toList = text.toList ++ rest) {c : Char} (hc : c ∈ rest)
    (hgap : isGap c = false) :
    ∃ position, parse longer = .error (.broken .trailingCharacters position) := by
  obtain ⟨w, spare, hw, hspare, -⟩ := value_of_parse_append h hnumber hlonger
  -- The character that is not blank stops the reader behind the document.
  have hskip : skipGap (spare ++ rest) ≠ [] := by
    rw [skipGap_spare_append hspare]
    intro hnil
    have hblank := skipGap_eq_nil_iff.1 hnil c hc
    rw [hgap] at hblank
    cases hblank
  have hend : atEnd (spare ++ rest) = .error ⟨.trailingCharacters, skipGap (spare ++ rest), 1⟩ := by
    rw [atEnd]
    split
    · next hnil => exact absurd hnil hskip
    · rfl
  have hdocument : document longer.toList
      = .error ⟨.trailingCharacters, skipGap (spare ++ rest), 1⟩ := by
    rw [document, hw]
    simp only [bind, Except.bind, hend]
  rw [parse, hdocument]
  exact ⟨_, rfl⟩

end Json

/-! ## Data files -/

namespace Kind

variable {k : Kind} {directory : String} {disk : Disk}

/-- The document of a data file is no number. -/
theorem ne_number_of_entriesIn {document : Value} {es : List (Entry k)}
    (h : k.entriesIn document = .ok es) : ∀ n, document ≠ .number n := by
  rintro n rfl
  cases h

/-- A collection loads from a file's bytes if they are a text that holds it. -/
theorem load_ofBytes_eq_ok_iff {bytes : ByteArray} {es : List (Entry k)}
    (hread : disk.read (k.path directory) = .ofBytes bytes) :
    k.load disk directory = .ok es ↔ ∃ text, bytes = text.toUTF8 ∧ k.parse text = .ok es := by
  rw [load_eq_ok_iff, hread]
  constructor
  · rintro (⟨hmissing, -⟩ | ⟨text, htext, hparse⟩)
    · exact absurd hmissing (ReadOutcome.ofBytes_ne_missing bytes)
    · exact ⟨text, ReadOutcome.ofBytes_eq_text_iff.1 htext, hparse⟩
  · rintro ⟨text, rfl, hparse⟩
    exact .inr ⟨text, ReadOutcome.ofBytes_toUTF8 text, hparse⟩

/-- A file that is there loads, or it is malformed, or it is no text. -/
theorem load_ofBytes_cases {bytes : ByteArray}
    (hread : disk.read (k.path directory) = .ofBytes bytes) :
    (∃ es, k.load disk directory = .ok es) ∨
      (∃ fault, k.load disk directory = .error (.malformed (k.path directory) fault)) ∨
      k.load disk directory = .error (.unreadable (k.path directory) .invalidText) := by
  rw [load, hread]
  rcases ReadOutcome.ofBytes_cases bytes with ⟨text, h⟩ | h
  · -- Only a text gets as far as the reader.
    rw [h, ofOutcome]
    rcases k.parse text with fault | es
    · exact .inr (.inl ⟨fault, rfl⟩)
    · exact .inl ⟨es, rfl⟩
  · rw [h, ofOutcome]
    exact .inr (.inr rfl)

end Kind

section Torn

variable {k : Kind} {directory : String} {torn whole : Disk} {bytes tail : ByteArray}

/-- A file and a longer one that both load hold the same collection. -/
theorem eq_of_load_append {es es' : List (Entry k)}
    (htorn : torn.read (k.path directory) = .ofBytes bytes)
    (hwhole : whole.read (k.path directory) = .ofBytes (bytes ++ tail))
    (hload : k.load torn directory = .ok es) (hload' : k.load whole directory = .ok es') :
    es = es' := by
  obtain ⟨text, rfl, htext⟩ := (Kind.load_ofBytes_eq_ok_iff htorn).1 hload
  obtain ⟨longer, hbytes, hlonger⟩ := (Kind.load_ofBytes_eq_ok_iff hwhole).1 hload'
  obtain ⟨document, hparse, hentries⟩ := Kind.parse_eq_ok_iff.1 htext
  obtain ⟨document', hparse', hentries'⟩ := Kind.parse_eq_ok_iff.1 hlonger
  -- The longer text is the shorter one with characters behind it, so its document is the
  -- same one: no document of a data file can go on.
  obtain ⟨rest, hrest⟩ := exists_append_of_toUTF8_append hbytes
  have hnumber := Kind.ne_number_of_entriesIn hentries
  obtain ⟨-, rfl⟩ := (Json.parse_append_eq_ok_iff hparse hnumber hrest).1 hparse'
  rw [hentries] at hentries'
  exact Except.ok.inj hentries'

/-- A file that loads does not load any more with another text behind it, unless that is
    blank space. -/
theorem load_append_eq_error {es : List (Entry k)} {text : String} {c : Char}
    (htorn : torn.read (k.path directory) = .ofBytes bytes)
    (hwhole : whole.read (k.path directory) = .ofBytes (bytes ++ text.toUTF8))
    (hload : k.load torn directory = .ok es) (hc : c ∈ text.toList) (hgap : isGap c = false) :
    ∃ position, k.load whole directory
      = .error (.malformed (k.path directory) (.broken .trailingCharacters position)) := by
  obtain ⟨start, rfl, hstart⟩ := (Kind.load_ofBytes_eq_ok_iff htorn).1 hload
  obtain ⟨document, hparse, hentries⟩ := Kind.parse_eq_ok_iff.1 hstart
  have hbytes : start.toUTF8 ++ text.toUTF8 = (start ++ text).toUTF8 := by
    rw [String.toUTF8_eq_toByteArray, String.toUTF8_eq_toByteArray, String.toUTF8_eq_toByteArray,
      String.toByteArray_append]
  have hnumber := Kind.ne_number_of_entriesIn hentries
  obtain ⟨position, hposition⟩ :=
    Json.exists_parse_append_eq_error hparse hnumber String.toList_append hc hgap
  refine ⟨position, ?_⟩
  rw [hbytes, ReadOutcome.ofBytes_toUTF8] at hwhole
  rw [Kind.load, hwhole, Kind.ofOutcome, Kind.parse, hposition]

/-- A data file that was cut off at any byte, or that goes on, in a directory on one disk
    and on another:

    * if both load, they load as the same collection;
    * if the longer one loads, then the one that was cut off loads as the same
      collection, or it is malformed, or it is no text;
    * if the shorter one loads and goes on with a text that is not blank, then the longer
      one is malformed, with trailing characters. -/
theorem torn_file_loads_whole
    (htorn : torn.read (k.path directory) = .ofBytes bytes)
    (hwhole : whole.read (k.path directory) = .ofBytes (bytes ++ tail)) :
    (∀ es es', k.load torn directory = .ok es → k.load whole directory = .ok es' → es = es') ∧
    (∀ es, k.load whole directory = .ok es →
      k.load torn directory = .ok es ∨
      (∃ fault, k.load torn directory = .error (.malformed (k.path directory) fault)) ∨
      k.load torn directory = .error (.unreadable (k.path directory) .invalidText)) ∧
    (∀ (es : List (Entry k)) (text : String), k.load torn directory = .ok es → tail = text.toUTF8 →
      (∃ c ∈ text.toList, isGap c = false) →
      ∃ position, k.load whole directory
        = .error (.malformed (k.path directory) (.broken .trailingCharacters position))) := by
  refine ⟨fun es es' => eq_of_load_append htorn hwhole, ?_, ?_⟩
  · intro es hload'
    rcases Kind.load_ofBytes_cases htorn with ⟨es', hload⟩ | hfault
    · left
      rw [hload, eq_of_load_append htorn hwhole hload hload']
    · exact .inr hfault
  · rintro es text hload rfl ⟨c, hc, hgap⟩
    exact load_append_eq_error htorn hwhole hload hc hgap

end Torn

/-! ## A cut inside a character -/

/-- A disk on which every file has the same bytes. -/
def everyFile (bytes : ByteArray) : Disk where
  read _ := .ofBytes bytes
  isDirectory _ := true

/-- A file with one style. The twenty-first byte is the first of two of a character. -/
def fileOfOne : String := "\x7b\"styles\":[\x7b\"name\":\"é\"\x7d]\x7d"

/-- The style in the file. -/
def entriesOfOne : List (Entry .style) :=
  [⟨(), Kind.style.fieldsOf [("name", .string "é")], [("name", .string "é")]⟩]

theorem parse_fileOfOne : Kind.style.parse fileOfOne = .ok entriesOfOne := by
  refine Kind.parse_eq_ok_iff.2
    ⟨.object [("styles", .array [.object [("name", .string "é")]])], ?_, rfl⟩
  simp only [Json.parse, fileOfOne, String.reduceToList]
  rfl

/-- A file that was cut inside a character, one with a line feed behind it, and one with a
    bracket. -/
theorem torn_file_loads_whole_sample :
    (Kind.style.load (everyFile (fileOfOne.toUTF8.extract 0 21)) "data" = .ok entriesOfOne ∨
      (∃ fault, Kind.style.load (everyFile (fileOfOne.toUTF8.extract 0 21)) "data"
        = .error (.malformed "data/writing-styles.json" fault)) ∨
      Kind.style.load (everyFile (fileOfOne.toUTF8.extract 0 21)) "data"
        = .error (.unreadable "data/writing-styles.json" .invalidText)) ∧
    (∀ es, Kind.style.load (everyFile (fileOfOne.toUTF8 ++ "\n".toUTF8)) "data" = .ok es →
      entriesOfOne = es) ∧
    ∃ position, Kind.style.load (everyFile (fileOfOne.toUTF8 ++ " ]".toUTF8)) "data"
      = .error (.malformed "data/writing-styles.json"
        (.broken .trailingCharacters position)) := by
  have hread (bytes : ByteArray) :
      (everyFile bytes).read (Kind.style.path "data") = .ofBytes bytes := rfl
  have hload : Kind.style.load (everyFile fileOfOne.toUTF8) "data" = .ok entriesOfOne :=
    (Kind.load_ofBytes_eq_ok_iff (hread _)).2 ⟨fileOfOne, rfl, parse_fileOfOne⟩
  have hcut : fileOfOne.toUTF8
      = fileOfOne.toUTF8.extract 0 21 ++ fileOfOne.toUTF8.extract 21 fileOfOne.toUTF8.size := by
    have hsize : 21 ≤ fileOfOne.toUTF8.size := by decide
    rw [← ByteArray.extract_eq_extract_append_extract 21 (Nat.zero_le 21) hsize,
      ByteArray.extract_zero_size]
  have hwhole := hread fileOfOne.toUTF8
  refine ⟨?_, ?_, ?_⟩
  · exact (torn_file_loads_whole (hread _) (hwhole.trans (congrArg _ hcut))).2.1 _ hload
  · exact fun es => (torn_file_loads_whole hwhole (hread (_ ++ "\n".toUTF8))).1 _ es hload
  · exact (torn_file_loads_whole hwhole (hread (_ ++ " ]".toUTF8))).2.2 _ " ]" hload rfl
      ⟨']', by decide, rfl⟩

end Stylebook
