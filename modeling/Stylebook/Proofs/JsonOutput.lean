/-
  Stylebook.Proofs.JsonOutput

  Which of the JSON that is printed can be read again. Reading refuses what is nested too deep
  and writing does not look at the depth; numbers, strings and keys never stand in the way.

  A listing wraps the records of a collection as deep as their data file does, so it is always
  read. A finding wraps them in one level more, so the deepest records that load are read in a
  listing and not in a finding (`json_output_read_iff`, `deepest_tone_not_read`).
-/

import Stylebook.Proofs.Invocation
import Stylebook.Proofs.SearchDump

namespace Stylebook

open Json (Value Members Layout depthLimit)

/-! ## Records that were loaded -/

/-- The record of an entry that was loaded leaves two levels for what stands around it in a data
    file. -/
theorem Kind.Loaded.depth_record_le {k : Kind} {es : List (Entry k)} (h : k.Loaded es)
    {e : Entry k} (he : e ∈ es) : e.record.toJson.depth ≤ depthLimit - 2 := by
  have hdepth : (k.entriesJson es).depth ≤ (depthLimit - 2) + 1 := Nat.le_of_lt_succ h.depth_lt
  cases k with
  | blacklist =>
    have hmem : (e.key, e.record.toJson) ∈ es.map fun e => (e.key, e.record.toJson) :=
      List.mem_map_of_mem he
    exact Json.depth_object_le_iff.1 hdepth _ hmem
  | _ =>
    have hmem : e.record.toJson ∈ es.map fun e => e.record.toJson := List.mem_map_of_mem he
    exact Json.depth_array_le_iff.1 hdepth _ hmem

/-! ## Findings -/

/-- The JSON of a search is read if and only if no entry that answers has a record deeper than
    124 levels. -/
theorem Catalog.exists_parse_search_iff (c : Catalog) (query : String) :
    (∃ v, Json.parse (c.search query).toJson.pretty = .ok v) ↔
      ∀ k, ∀ e ∈ c.entries k, e.Answers query → e.record.toJson.depth ≤ 124 := by
  rw [Value.pretty, Json.exists_parse_print_iff, Finding.depth_toJson_le_iff]
  refine forall_congr' fun k => ?_
  -- The matches are the entries that answer.
  constructor
  · intro h e he hanswers
    obtain ⟨m, hm, rfl⟩ := List.mem_map.1 (mem_matched_iff.2 ⟨he, hanswers⟩)
    exact h m hm
  · intro h m hm
    obtain ⟨he, hanswers⟩ := mem_matched_iff.1 (List.mem_map_of_mem hm)
    exact h m.entry he hanswers

/-! ## Calls -/

namespace Invocation

variable {s : Surroundings} {o : CommandLine.Options} {c : Catalog} {arguments : List String}

theorem Reaches.loaded (h : Reaches s o c) (k : Kind) : k.Loaded (c.entries k) := by
  obtain ⟨-, directory, -, hload⟩ := h
  exact Catalog.loaded_of_load hload k

/-- A run reaches one catalog at most. -/
theorem Reaches.eq {c' : Catalog} (h : Reaches s o c) (h' : Reaches s o c') : c = c' := by
  obtain ⟨-, directory, hdirectory, hload⟩ := h
  obtain ⟨-, directory', hdirectory', hload'⟩ := h'
  rw [hdirectory] at hdirectory'
  cases hdirectory'
  rw [hload] at hload'
  exact Except.ok.inj hload'

theorem outcome_of_reaches (hparse : CommandLine.parse arguments = .ok o) (h : Reaches s o c) :
    outcome s arguments = ⟨0, render (taskSet o) o.json c ++ "\n", ""⟩ :=
  outcome_of_output hparse (run_eq_ok_iff.2 ⟨c, h, rfl⟩)

/-- A call that ends with the exit code 0 has printed what its run makes of a catalog. -/
theorem exists_reaches_of_exitCode (hparse : CommandLine.parse arguments = .ok o)
    (h : (outcome s arguments).exitCode = 0) :
    ∃ c, Reaches s o c ∧
      outcome s arguments = ⟨0, render (taskSet o) o.json c ++ "\n", ""⟩ := by
  rcases hrun : run s o with fault | output
  · rw [(outcome_of_fault hparse hrun).2] at h
    exact absurd h (by decide)
  · obtain ⟨c, hreaches, -⟩ := run_eq_ok_iff.1 hrun
    exact ⟨c, hreaches, outcome_of_reaches hparse hreaches⟩

end Invocation

/-- The JSON of a call that asks for it and succeeds, whatever stands around it. It has reached
    a catalog, whose records are nested at most 125 levels deep, and

    * a listing is JSON and nothing else, and is read;
    * behind the text of a search and the delimiter stands JSON that is read if and only if
      every entry that answers the query has a record of at most 124 levels. -/
theorem json_output_read_iff (s : Surroundings) {arguments : List String}
    {o : CommandLine.Options} (hparse : CommandLine.parse arguments = .ok o)
    (hjson : o.json = true) (hexit : (Invocation.outcome s arguments).exitCode = 0) :
    ∃ c, Invocation.Reaches s o c ∧
      (∀ k, ∀ e ∈ c.entries k, e.record.toJson.depth ≤ 125) ∧
      (o.list = true → ∃ json, (Invocation.outcome s arguments).output = json ++ "\n" ∧
        ∃ v, Json.parse json = .ok v) ∧
      (o.list = false → ∃ json, (Invocation.outcome s arguments).output
          = Report.findingText (c.search o.joined) ++ Report.delimiter ++ json ++ "\n" ∧
        ((∃ v, Json.parse json = .ok v) ↔
          ∀ k, ∀ e ∈ c.entries k, e.Answers o.joined → e.record.toJson.depth ≤ 124)) := by
  obtain ⟨c, hreaches, houtcome⟩ := Invocation.exists_reaches_of_exitCode hparse hexit
  have hloaded := hreaches.loaded
  rw [houtcome, hjson]
  refine ⟨c, hreaches, fun k e he => (hloaded k).depth_record_le he, fun hlist => ?_, fun hlist => ?_⟩
  · have htask : Invocation.taskSet o = .listing := by rw [Invocation.taskSet, if_pos hlist]
    rw [htask]
    exact ⟨c.toJson.pretty, rfl,
      (Json.exists_parse_print_iff .pretty).2 (Catalog.toJson_depth_le hloaded)⟩
  · have htask : Invocation.taskSet o = .search o.joined := by
      rw [Invocation.taskSet, hlist]
      rfl
    rw [htask]
    exact ⟨(c.search o.joined).toJson.pretty, rfl, c.exists_parse_search_iff o.joined⟩

/-! ## The deepest tone -/

/-- An empty array inside so many arrays. -/
def nested : Nat → Value
  | 0 => .array []
  | n + 1 => .array [nested n]

theorem depth_nested (n : Nat) : (nested n).depth = n + 1 := by
  induction n with
  | zero => rfl
  | succ n ih => simp [nested, Value.depth, Json.depthItems, ih]

theorem keysDistinct_nested (n : Nat) : (nested n).KeysDistinct := by
  induction n with
  | zero => trivial
  | succ n ih => exact Json.keysDistinct_array_iff.2 (List.forall_mem_singleton.2 ih)

theorem numbers_nested (n : Nat) : (nested n).numbers = [] := by
  induction n with
  | zero => rfl
  | succ n ih => simp [nested, Value.numbers, Json.numbersInItems, ih]

/-- A tone with a name, and arrays in a field that nothing looks at. -/
def nestingTone (n : Nat) : Entry .tone :=
  Kind.tone.entryOf ((), [("name", .string "a"), ("x", nested n)])

theorem depth_nestingTone (n : Nat) : (nestingTone n).record.toJson.depth = n + 2 := by
  show (Value.object [("name", .string "a"), ("x", nested n)]).depth = n + 2
  simp [Value.depth, Json.depthMembers, depth_nested]

theorem loaded_nestingTone {n : Nat} (hn : n ≤ 123) : Kind.tone.Loaded [nestingTone n] where
  entries := rfl
  keysDistinct := by
    have hrecord : (Value.object [("name", .string "a"), ("x", nested n)]).KeysDistinct := by
      refine Json.keysDistinct_object_iff.2 ⟨by simp, ?_⟩
      simp [Value.KeysDistinct, keysDistinct_nested]
    exact Json.keysDistinct_array_iff.2 (List.forall_mem_singleton.2 hrecord)
  depth_lt := by
    have hdepth : (Kind.tone.entriesJson [nestingTone n]).depth = n + 3 := by
      show (Value.array [(nestingTone n).record.toJson]).depth = n + 3
      simp [Value.depth, Json.depthItems, depth_nestingTone]
    have hlimit : depthLimit = 127 := rfl
    omega

/-- The data file of this tone. -/
def nestingFile (n : Nat) : String :=
  (Kind.tone.document (Kind.tone.entriesJson [nestingTone n])).compact

theorem parse_nestingFile {n : Nat} (hn : n ≤ 123) :
    Kind.tone.parse (nestingFile n) = .ok [nestingTone n] := by
  have hloaded := loaded_nestingTone hn
  obtain ⟨hkeys, hdepth⟩ := hloaded.document_readable
  have hnumbers : (Kind.tone.document (Kind.tone.entriesJson [nestingTone n])).numbers = [] := by
    show (Value.object [("tones", .array
      [.object [("name", .string "a"), ("x", nested n)]])]).numbers = []
    simp [Value.numbers, Json.numbersInItems, Json.numbersInMembers, numbers_nested]
  have hparse := Json.parse_written .compact hkeys hdepth (Json.floatsReadBack_of_numbers hnumbers)
  exact Kind.parse_eq_ok_iff.2 ⟨_, hparse, hloaded.entriesIn_document⟩

/-- A data directory with the one style and a file of tones. -/
def besideTones (tones : String) : Surroundings where
  setting := none
  programDirectory := none
  disk := (styledTree tones).toDisk

/-- The catalog that loads there. -/
def catalogWithTones (es : List (Entry .tone)) : Catalog where
  entries
    | .style => [Kind.style.entryOf ((), [("name", .string "A")])]
    | .tone => es
    | _ => []

/-- Words, and an option for JSON, in the data directory. -/
def jsonOptions (words : List String) (list : Bool) : CommandLine.Options where
  words := words
  json := true
  list := list
  kind := none
  directory := some "data"

theorem reaches_catalogWithTones {tones : String} {es : List (Entry .tone)}
    (hparse : Kind.tone.parse tones = .ok es) {words : List String} {list : Bool}
    (hblank : ¬ (jsonOptions words list).Blank) :
    Invocation.Reaches (besideTones tones) (jsonOptions words list) (catalogWithTones es) := by
  have hread := (read_styledTree tones).2
  refine ⟨hblank, "data", rfl, Catalog.load_eq_ok_iff.2 fun k => ?_⟩
  have hasked : k ∈ (jsonOptions words list).kinds :=
    CommandLine.Options.mem_kinds_iff.2 (.inl rfl)
  refine ⟨fun _ => ?_, fun hk => absurd hasked hk⟩
  cases k with
  | style => exact load_style_styledTree tones
  | tone => exact ((Kind.load_of_text hread).1 _).2 hparse
  | _ => exact load_other_styledTree tones nofun nofun

theorem not_blank_jsonOptions_letter : ¬ (jsonOptions ["a"] false).Blank :=
  not_blank_letterOptions none none

/-- The deepest tone that loads is listed in JSON that is read, and so is the JSON of a search
    that finds a tone with one level less. -/
theorem json_output_read_iff_sample :
    (∃ json, (Invocation.outcome (besideTones (nestingFile 123)) ["-l", "-j", "-ddata"]).output
        = json ++ "\n" ∧ ∃ v, Json.parse json = .ok v) ∧
    ∃ text json v,
      (Invocation.outcome (besideTones (nestingFile 122)) ["a", "-j", "-ddata"]).output
        = text ++ Report.delimiter ++ json ++ "\n" ∧ Json.parse json = .ok v := by
  constructor
  · have hparse : CommandLine.parse ["-l", "-j", "-ddata"] = .ok (jsonOptions [] true) := rfl
    have hblank : ¬ (jsonOptions [] true).Blank := fun h => nomatch h.1
    have hreaches := reaches_catalogWithTones (parse_nestingFile (Nat.le_refl 123)) hblank
    have hexit := congrArg Invocation.Outcome.exitCode
      (Invocation.outcome_of_reaches hparse hreaches)
    obtain ⟨c, hc, -, hlisting, -⟩ := json_output_read_iff _ hparse rfl hexit
    obtain rfl := hc.eq hreaches
    exact hlisting rfl
  · have hparse : CommandLine.parse ["a", "-j", "-ddata"] = .ok (jsonOptions ["a"] false) := rfl
    have hreaches := reaches_catalogWithTones (parse_nestingFile (n := 122) (by decide))
      not_blank_jsonOptions_letter
    have hexit := congrArg Invocation.Outcome.exitCode
      (Invocation.outcome_of_reaches hparse hreaches)
    obtain ⟨c, hc, -, -, hsearch⟩ := json_output_read_iff _ hparse rfl hexit
    obtain rfl := hc.eq hreaches
    obtain ⟨json, houtput, hread⟩ := hsearch rfl
    have hshallow : ∀ k, ∀ e ∈ (catalogWithTones [nestingTone 122]).entries k,
        e.Answers (jsonOptions ["a"] false).joined → e.record.toJson.depth ≤ 124 := by
      intro k e he _
      cases k with
      | style =>
        rw [List.mem_singleton.1 he]
        decide
      | tone =>
        rw [List.mem_singleton.1 he, depth_nestingTone]
      | _ => cases he
    obtain ⟨v, hv⟩ := hread.2 hshallow
    exact ⟨_, json, v, houtput, hv⟩

/-- The deepest tone that loads is found, and the JSON that shows it is not read: the reader's
    limit is passed by one level. -/
theorem deepest_tone_not_read :
    ∃ json, Invocation.outcome (besideTones (nestingFile 123)) ["a", "-j", "-ddata"]
        = ⟨0, Report.findingText ((catalogWithTones [nestingTone 123]).search "a")
            ++ Report.delimiter ++ json ++ "\n", ""⟩ ∧
      ∀ v, Json.parse json ≠ .ok v := by
  have hparse : CommandLine.parse ["a", "-j", "-ddata"] = .ok (jsonOptions ["a"] false) := rfl
  have hreaches := reaches_catalogWithTones (parse_nestingFile (Nat.le_refl 123))
    not_blank_jsonOptions_letter
  refine ⟨((catalogWithTones [nestingTone 123]).search "a").toJson.pretty,
    Invocation.outcome_of_reaches hparse hreaches, fun v hv => ?_⟩
  have hanswers : (nestingTone 123).Answers "a" := by decide
  have hdepth := (Catalog.exists_parse_search_iff _ "a").1 ⟨v, hv⟩ .tone
    (nestingTone 123) (List.mem_singleton_self _) hanswers
  rw [depth_nestingTone] at hdepth
  omega

end Stylebook
