/-
  Stylebook.Proofs.Invocation

  What a call comes to. A run sets itself a task, finds the data directory and loads the
  catalog, each of which may fail; rendering cannot. So a run that succeeds prints what its
  task makes of the catalog that it reaches (`Invocation.run_eq_ok_iff`), and one that fails
  has the fault of the first step that failed.

  Each of these faults is said without the run: there is nothing to do
  (`CommandLine.Options.Blank`), the variable is needed and set to nothing
  (`Settings.Unusable`), a collection that is asked for does not load
  (`CommandLine.Options.FirstToFail`). A call ends in the way that the first of them, after
  the faults of the command line, prescribes (`call_ends_at_first_fault`).
-/

import Stylebook.Invocation
import Stylebook.Proofs.DataFile
import Stylebook.Proofs.Text.Pieces

namespace Stylebook

/-! ## Command lines -/

namespace CommandLine.Options

variable {o : Options} {k : Kind}

/-- There is nothing to do: no listing is asked for, and every character of every word is
    white space. -/
def Blank (o : Options) : Prop :=
  o.list = false ∧ ∀ w ∈ o.words, ∀ c ∈ w.toList, Text.isBlank c = true

/-- A collection is asked for: by its kind, or because no kind is given. -/
def Asks (o : Options) (k : Kind) : Prop := o.kind = none ∨ o.kind = some k

/-- The words with single spaces between them. -/
def joined (o : Options) : String := " ".intercalate o.words

theorem allBlank_joined_iff :
    Text.allBlank o.joined = true ↔ ∀ w ∈ o.words, ∀ c ∈ w.toList, Text.isBlank c = true := by
  have hspace : ∀ c ∈ " ".toList, Text.isBlank c = true := List.forall_mem_singleton.2 (by decide)
  rw [Text.allBlank, List.all_eq_true, joined, String.toList_intercalate,
    Text.forall_mem_intercalate_iff hspace, List.forall_mem_map]

theorem mem_kinds_iff : k ∈ o.kinds ↔ o.Asks k := by
  rw [kinds, Asks]
  cases o.kind with
  | none => simp [k.mem_all]
  | some j => simp [eq_comm]

/-- The first collection, in the fixed order, that is asked for and does not load, and its
    fault. -/
def FirstToFail (o : Options) (disk : Disk) (directory : String) (k : Kind)
    (fault : LoadFault) : Prop :=
  ∃ before after, Kind.all = before ++ k :: after ∧ o.Asks k ∧
    k.load disk directory = .error fault ∧
    ∀ j ∈ before, o.Asks j → ∃ es, j.load disk directory = .ok es

theorem catalog_load_eq_error_iff {disk : Disk} {directory : String} {fault : LoadFault} :
    Catalog.load disk directory o.kinds = .error fault ↔
      ∃ k, o.FirstToFail disk directory k fault := by
  rw [Catalog.load_eq_error_iff]
  cases hkind : o.kind with
  | none =>
    -- All collections are asked for, in the fixed order.
    have hkinds : o.kinds = Kind.all := by rw [kinds, hkind]
    rw [hkinds]
    constructor
    · rintro ⟨before, k, after, hsplit, hbefore, hk⟩
      exact ⟨k, before, after, hsplit, .inl hkind, hk, fun j hj _ => hbefore j hj⟩
    · rintro ⟨k, before, after, hsplit, -, hk, hbefore⟩
      exact ⟨before, k, after, hsplit, fun j hj => hbefore j hj (.inl hkind), hk⟩
  | some asked =>
    have hkinds : o.kinds = [asked] := by rw [kinds, hkind]
    have hasks (k : Kind) : o.Asks k ↔ k = asked := by
      rw [← mem_kinds_iff, hkinds, List.mem_singleton]
    rw [hkinds]
    constructor
    · rintro ⟨before, k, after, hsplit, -, hk⟩
      obtain ⟨rfl, rfl, rfl⟩ : before = [] ∧ asked = k ∧ after = [] := by
        cases before <;> simp_all
      obtain ⟨before, after, hall, hnot⟩ := asked.exists_all_eq
      refine ⟨asked, before, after, hall, (hasks asked).2 rfl, hk, fun j hj hj' => ?_⟩
      -- Nothing that comes before is asked for.
      rw [(hasks j).1 hj'] at hj
      exact absurd hj hnot
    · rintro ⟨k, before, after, -, hk, hfault, -⟩
      obtain rfl := (hasks k).1 hk
      exact ⟨[], k, [], rfl, nofun, hfault⟩

end CommandLine.Options

/-! ## Settings -/

/-- The variable is needed, since no directory is given, and is set to nothing. -/
def Settings.Unusable (s : Surroundings) (given : Option String) : Prop :=
  given = none ∧ s.setting = some ""

theorem Settings.directory_eq_error_iff {s : Surroundings} {given : Option String}
    {fault : Settings.Fault} :
    Settings.directory s given = .error fault ↔ Settings.Unusable s given := by
  rw [Unusable]
  cases given with
  | some value => simp [directory]
  | none =>
    cases hsetting : s.setting with
    | none => simp [directory, hsetting]
    | some value =>
      rw [directory, hsetting]
      cases fault
      by_cases h : value = ""
      · simp [h]
      · simp [h]

/-! ## Runs -/

namespace Invocation

open CommandLine (Options Stop)

variable {s : Surroundings} {o : Options}

/-- The task that options set, if there is something to do. -/
def taskSet (o : Options) : Task := if o.list then .listing else .search o.joined

theorem taskOf_of_blank (h : o.Blank) : taskOf o = .error .noQuery := by
  have hjoined : Text.allBlank o.joined = true := Options.allBlank_joined_iff.2 h.2
  have hquery : o.query? = none := if_pos hjoined
  rw [taskOf, h.1, hquery]
  rfl

theorem taskOf_of_not_blank (h : ¬ o.Blank) : taskOf o = .ok (taskSet o) := by
  rw [taskOf, taskSet]
  cases hlist : o.list with
  | true => rfl
  | false =>
    have hjoined : ¬ Text.allBlank o.joined = true := fun hjoined =>
      h ⟨hlist, Options.allBlank_joined_iff.1 hjoined⟩
    have hquery : o.query? = some o.joined := if_neg hjoined
    rw [hquery]
    rfl

/-- A run gets as far as a catalog: there is something to do, the data directory is known, and
    each collection that is asked for loads from it. -/
def Reaches (s : Surroundings) (o : Options) (c : Catalog) : Prop :=
  ¬ o.Blank ∧ ∃ directory, Settings.directory s o.directory = .ok directory ∧
    Catalog.load s.disk directory o.kinds = .ok c

/-- What a run gives, by the first step that fails. -/
inductive Gives (s : Surroundings) (o : Options) : Except Fault String → Prop where
  | noQuery : o.Blank → Gives s o (.error .noQuery)
  | settings {fault : Settings.Fault} : ¬ o.Blank →
      Settings.directory s o.directory = .error fault → Gives s o (.error (.settings fault))
  | load {directory : String} {fault : LoadFault} : ¬ o.Blank →
      Settings.directory s o.directory = .ok directory →
      Catalog.load s.disk directory o.kinds = .error fault → Gives s o (.error (.load fault))
  | output {c : Catalog} : Reaches s o c → Gives s o (.ok (render (taskSet o) o.json c))

theorem Gives.run_eq {result : Except Fault String} (h : Gives s o result) :
    run s o = result := by
  cases h with
  | noQuery hblank =>
    rw [run, taskOf_of_blank hblank]
    rfl
  | settings hblank hdirectory =>
    rw [run, taskOf_of_not_blank hblank, directoryOf, hdirectory]
    rfl
  | load hblank hdirectory hload =>
    rw [run, taskOf_of_not_blank hblank, directoryOf, hdirectory]
    simp only [bind, Except.bind, catalogOf, hload]
  | output hreaches =>
    obtain ⟨hblank, directory, hdirectory, hload⟩ := hreaches
    rw [run, taskOf_of_not_blank hblank, directoryOf, hdirectory]
    simp only [bind, Except.bind, catalogOf, hload]
    rfl

theorem gives_run (s : Surroundings) (o : Options) : Gives s o (run s o) := by
  suffices h : ∃ result, Gives s o result by
    obtain ⟨result, hresult⟩ := h
    rw [hresult.run_eq]
    exact hresult
  -- The steps in the order in which they are taken; the first one that fails decides.
  by_cases hblank : o.Blank
  · exact ⟨_, .noQuery hblank⟩
  · rcases hdirectory : Settings.directory s o.directory with fault | directory
    · exact ⟨_, .settings hblank hdirectory⟩
    · rcases hload : Catalog.load s.disk directory o.kinds with fault | c
      · exact ⟨_, .load hblank hdirectory hload⟩
      · exact ⟨_, .output ⟨hblank, directory, hdirectory, hload⟩⟩

/-- A run gives what the first step that fails prescribes, and nothing else. -/
theorem run_eq_iff {result : Except Fault String} : run s o = result ↔ Gives s o result :=
  ⟨fun h => h ▸ gives_run s o, Gives.run_eq⟩

/-- A run that succeeds prints what its task makes of the catalog that it reaches. -/
theorem run_eq_ok_iff {output : String} :
    run s o = .ok output ↔ ∃ c, Reaches s o c ∧ output = render (taskSet o) o.json c := by
  rw [run_eq_iff]
  constructor
  · intro h
    cases h with
    | output hreaches => exact ⟨_, hreaches, rfl⟩
  · rintro ⟨c, hreaches, rfl⟩
    exact .output hreaches

theorem exists_run_eq_ok_iff : (∃ output, run s o = .ok output) ↔ ∃ c, Reaches s o c := by
  simp only [run_eq_ok_iff]
  constructor
  · rintro ⟨output, c, hreaches, -⟩
    exact ⟨c, hreaches⟩
  · rintro ⟨c, hreaches⟩
    exact ⟨_, c, hreaches, rfl⟩

theorem run_eq_noQuery_iff : run s o = .error .noQuery ↔ o.Blank := by
  rw [run_eq_iff]
  constructor
  · intro h
    cases h with
    | noQuery hblank => exact hblank
  · exact .noQuery

theorem run_eq_settings_iff {fault : Settings.Fault} :
    run s o = .error (.settings fault) ↔ ¬ o.Blank ∧ Settings.Unusable s o.directory := by
  rw [run_eq_iff]
  constructor
  · intro h
    cases h with
    | settings hblank hdirectory =>
      exact ⟨hblank, Settings.directory_eq_error_iff.1 hdirectory⟩
  · rintro ⟨hblank, hunusable⟩
    exact .settings hblank (Settings.directory_eq_error_iff.2 hunusable)

theorem run_eq_load_iff {fault : LoadFault} :
    run s o = .error (.load fault) ↔ ¬ o.Blank ∧ ∃ directory k,
      Settings.directory s o.directory = .ok directory ∧
        o.FirstToFail s.disk directory k fault := by
  rw [run_eq_iff]
  constructor
  · intro h
    cases h with
    | load hblank hdirectory hload =>
      obtain ⟨k, hk⟩ := Options.catalog_load_eq_error_iff.1 hload
      exact ⟨hblank, _, k, hdirectory, hk⟩
  · rintro ⟨hblank, directory, k, hdirectory, hk⟩
    exact .load hblank hdirectory (Options.catalog_load_eq_error_iff.2 ⟨k, hk⟩)

/-- A catalog is reached if everything that is asked for loads. -/
theorem exists_reaches_iff :
    (∃ c, Reaches s o c) ↔ ¬ o.Blank ∧ ∃ directory,
      Settings.directory s o.directory = .ok directory ∧
        ∀ k, o.Asks k → ∃ es, k.load s.disk directory = .ok es := by
  simp only [← Options.mem_kinds_iff, ← Catalog.exists_load_iff]
  constructor
  · rintro ⟨c, hblank, directory, hdirectory, hload⟩
    exact ⟨hblank, directory, hdirectory, c, hload⟩
  · rintro ⟨hblank, directory, hdirectory, c, hload⟩
    exact ⟨c, hblank, directory, hdirectory, hload⟩

/-! ## Calls -/

variable {arguments : List String}

theorem outcome_of_output {output : String} (hparse : CommandLine.parse arguments = .ok o)
    (h : run s o = .ok output) : outcome s arguments = ⟨0, output ++ "\n", ""⟩ := by
  simp only [outcome, hparse, h]

/-- A run that fails prints nothing but the report of its fault. -/
theorem outcome_of_fault {fault : Fault} (hparse : CommandLine.parse arguments = .ok o)
    (h : run s o = .error fault) :
    (outcome s arguments).output = "" ∧ (outcome s arguments).exitCode = 1 := by
  simp only [outcome, hparse, h, failed, and_self]

end Invocation

/-- How a call ends, for all arguments and whatever stands around it. Arguments that cannot be
    understood end it with the exit code 2. A run gives the first of these that applies:

    * there is no query, if there is nothing to do, whatever the settings and the files are;
    * the fault of the settings, if the variable is needed and set to nothing, whatever the
      files are;
    * the fault of the first collection that is asked for and does not load, which names its
      file;
    * an output, if everything that is asked for loads.

    The output and a line feed are printed with the exit code 0. A fault of the run ends the
    call with the exit code 1, and nothing is printed as output. -/
theorem call_ends_at_first_fault (s : Surroundings) (arguments : List String) :
    (∀ stop, CommandLine.parse arguments = .error stop →
      Invocation.outcome s arguments = Invocation.stopped stop ∧
      ∀ fault, stop = .fault fault → (Invocation.outcome s arguments).output = "" ∧
        (Invocation.outcome s arguments).exitCode = 2) ∧
    ∀ o, CommandLine.parse arguments = .ok o →
      (Invocation.run s o = .error .noQuery ↔ o.Blank) ∧
      (Invocation.run s o = .error (.settings .emptyVariable) ↔
        ¬ o.Blank ∧ Settings.Unusable s o.directory) ∧
      (∀ fault, Invocation.run s o = .error (.load fault) ↔ ¬ o.Blank ∧ ∃ directory k,
        Settings.directory s o.directory = .ok directory ∧
          o.FirstToFail s.disk directory k fault ∧ fault.path = k.path directory) ∧
      ((∃ output, Invocation.run s o = .ok output) ↔ ¬ o.Blank ∧ ∃ directory,
        Settings.directory s o.directory = .ok directory ∧
          ∀ k, o.Asks k → ∃ es, k.load s.disk directory = .ok es) ∧
      (∀ output, Invocation.run s o = .ok output →
        Invocation.outcome s arguments = ⟨0, output ++ "\n", ""⟩) ∧
      ∀ fault, Invocation.run s o = .error fault →
        (Invocation.outcome s arguments).output = "" ∧
          (Invocation.outcome s arguments).exitCode = 1 := by
  constructor
  · intro stop hparse
    have houtcome : Invocation.outcome s arguments = Invocation.stopped stop := by
      simp only [Invocation.outcome, hparse]
    refine ⟨houtcome, ?_⟩
    rintro fault rfl
    rw [houtcome]
    exact ⟨rfl, rfl⟩
  · intro o hparse
    refine ⟨Invocation.run_eq_noQuery_iff, Invocation.run_eq_settings_iff, ?_, ?_,
      fun output => Invocation.outcome_of_output hparse,
      fun fault => Invocation.outcome_of_fault hparse⟩
    · intro fault
      rw [Invocation.run_eq_load_iff]
      -- A fault of loading names the file of its collection by itself.
      refine and_congr_right fun _ => exists_congr fun directory => exists_congr fun k => ?_
      refine and_congr_right fun _ => (and_iff_left_of_imp ?_).symm
      rintro ⟨before, after, -, -, hfault, -⟩
      exact Kind.path_of_load hfault
    · exact Invocation.exists_run_eq_ok_iff.trans Invocation.exists_reaches_iff

/-! ## A data directory with a broken file -/

/-- The file of the sample's one style. -/
def oneStyle : String := "\x7b\"styles\":[\x7b\"name\":\"A\"\x7d]\x7d"

/-- A data directory with the one style, and with a text as the file of its tones. -/
def styledTree (tones : String) : Tree where
  nodes := [(["data"], .directory), (["writing-styles.json", "data"], .file oneStyle.toUTF8),
    (["tone-variations.json", "data"], .file tones.toUTF8)]
  here := []

theorem resolve_styledTree (tones : String) (k : Kind) :
    (styledTree tones).resolve (k.path "data") = .ok [k.fileName, "data"] := by
  cases k <;> rfl

theorem read_styledTree (tones : String) :
    (styledTree tones).read (Kind.style.path "data") = .text oneStyle ∧
      (styledTree tones).read (Kind.tone.path "data") = .text tones := by
  constructor
  · rw [Tree.read, resolve_styledTree tones .style]
    exact ReadOutcome.ofBytes_toUTF8 _
  · rw [Tree.read, resolve_styledTree tones .tone]
    exact ReadOutcome.ofBytes_toUTF8 _

theorem load_style_styledTree (tones : String) :
    Kind.style.load (styledTree tones).toDisk "data"
      = .ok [Kind.style.entryOf ((), [("name", .string "A")])] := by
  have hparse : Json.parse oneStyle
      = .ok (.object [("styles", .array [.object [("name", .string "A")]])]) := by
    simp only [Json.parse, oneStyle, String.reduceToList]
    rfl
  exact ((Kind.load_of_text (read_styledTree tones).1).1 _).2
    (Kind.parse_eq_ok_iff.2 ⟨_, hparse, rfl⟩)

/-- The collections without a file are empty. -/
theorem load_other_styledTree {k : Kind} (tones : String) (hstyle : k ≠ .style)
    (htone : k ≠ .tone) : k.load (styledTree tones).toDisk "data" = .ok [] := by
  cases k with
  | style => exact absurd rfl hstyle
  | tone => exact absurd rfl htone
  | _ => rfl

/-- A file of tones that breaks off at once. -/
def brokenTones : String := "\x7b"

/-- What is wrong with it. -/
def brokenTonesFault : LoadFault :=
  .malformed "data/tone-variations.json" (.broken .endInObject ⟨1, 1⟩)

theorem load_brokenTones :
    Kind.tone.load (styledTree brokenTones).toDisk "data" = .error brokenTonesFault := by
  have hparse : Json.parse brokenTones = .error (.broken .endInObject ⟨1, 1⟩) := by
    simp only [Json.parse, brokenTones, String.reduceToList]
    rfl
  have hread : (styledTree brokenTones).toDisk.read (Kind.tone.path "data") = .text brokenTones :=
    (read_styledTree brokenTones).2
  rw [Kind.load, hread, Kind.ofOutcome, Kind.parse, hparse]
  rfl

/-- The data directory with the broken file, and a variable that is set to nothing. -/
def besideBrokenTones : Surroundings where
  setting := some ""
  programDirectory := none
  disk := (styledTree brokenTones).toDisk

/-- A search for one letter. -/
def letterOptions (kind : Option Kind) (directory : Option String) : CommandLine.Options where
  words := ["a"]
  json := false
  list := false
  kind := kind
  directory := directory

theorem not_blank_letterOptions (kind : Option Kind) (directory : Option String) :
    ¬ (letterOptions kind directory).Blank := by
  rintro ⟨-, hblank⟩
  have ha : Text.isBlank 'a' = true :=
    hblank "a" (List.mem_singleton_self _) 'a' (List.mem_singleton_self _)
  exact absurd ha (by decide)

/-- An unknown option; a blank word; no directory; a broken file; and a run that does not ask
    for the broken file. -/
theorem call_ends_at_first_fault_sample :
    (Invocation.outcome besideBrokenTones [" ", "-x"]).exitCode = 2 ∧
    Invocation.run besideBrokenTones ⟨[" "], false, false, none, none⟩ = .error .noQuery ∧
    Invocation.run besideBrokenTones (letterOptions none none)
      = .error (.settings .emptyVariable) ∧
    Invocation.run besideBrokenTones (letterOptions none (some "data"))
      = .error (.load brokenTonesFault) ∧
    ∃ output, Invocation.outcome besideBrokenTones ["a", "-ddata", "-tstyle"]
      = ⟨0, output ++ "\n", ""⟩ := by
  refine ⟨?_, ?_, ?_, ?_, ?_⟩
  · have hparse : CommandLine.parse [" ", "-x"] = .error (.fault (.unknownArgument "-x")) := rfl
    obtain ⟨-, hstopped⟩ := (call_ends_at_first_fault besideBrokenTones [" ", "-x"]).1 _ hparse
    exact (hstopped _ rfl).2
  · have hparse : CommandLine.parse [" "] = .ok ⟨[" "], false, false, none, none⟩ := rfl
    obtain ⟨hblank, -⟩ := (call_ends_at_first_fault besideBrokenTones [" "]).2 _ hparse
    have hspace : ∀ w ∈ [" "], ∀ c ∈ w.toList, Text.isBlank c = true :=
      List.forall_mem_singleton.2 (List.forall_mem_singleton.2 (by decide))
    exact hblank.2 ⟨rfl, hspace⟩
  · have hparse : CommandLine.parse ["a"] = .ok (letterOptions none none) := rfl
    obtain ⟨-, hsettings, -⟩ := (call_ends_at_first_fault besideBrokenTones ["a"]).2 _ hparse
    exact hsettings.2 ⟨not_blank_letterOptions none none, rfl, rfl⟩
  · have hparse : CommandLine.parse ["a", "-d", "data"]
        = .ok (letterOptions none (some "data")) := rfl
    obtain ⟨-, -, hload, -⟩ :=
      (call_ends_at_first_fault besideBrokenTones ["a", "-d", "data"]).2 _ hparse
    have hfirst : (letterOptions none (some "data")).FirstToFail besideBrokenTones.disk "data"
        .tone brokenTonesFault := by
      -- Before the tones come the styles, which load.
      refine ⟨[.style], _, rfl, .inl rfl, load_brokenTones, fun j hj _ => ?_⟩
      rw [List.mem_singleton.1 hj]
      exact ⟨_, load_style_styledTree brokenTones⟩
    exact (hload _).2 ⟨not_blank_letterOptions none _, "data", .tone, rfl, hfirst, rfl⟩
  · have hparse : CommandLine.parse ["a", "-ddata", "-tstyle"]
        = .ok (letterOptions (some .style) (some "data")) := rfl
    obtain ⟨-, -, -, houtputs, hprinted, -⟩ :=
      (call_ends_at_first_fault besideBrokenTones ["a", "-ddata", "-tstyle"]).2 _ hparse
    have hall : ∀ k, (letterOptions (some .style) (some "data")).Asks k →
        ∃ es, k.load besideBrokenTones.disk "data" = .ok es := by
      intro k hk
      obtain rfl : .style = k := Option.some.inj (hk.resolve_left nofun)
      exact ⟨_, load_style_styledTree brokenTones⟩
    obtain ⟨output, hrun⟩ :=
      houtputs.2 ⟨not_blank_letterOptions _ _, "data", rfl, hall⟩
    exact ⟨output, hprinted output hrun⟩

/-! ## The data directory with all files in order -/

/-- A file with one tone. -/
def oneTone : String := "\x7b\"tones\":[\x7b\"name\":\"A\"\x7d]\x7d"

theorem load_oneTone : Kind.tone.load (styledTree oneTone).toDisk "data"
    = .ok [Kind.tone.entryOf ((), [("name", .string "A")])] := by
  have hparse : Json.parse oneTone
      = .ok (.object [("tones", .array [.object [("name", .string "A")]])]) := by
    simp only [Json.parse, oneTone, String.reduceToList]
    rfl
  exact ((Kind.load_of_text (read_styledTree oneTone).2).1 _).2
    (Kind.parse_eq_ok_iff.2 ⟨_, hparse, rfl⟩)

/-- The data directory with the one tone in it. -/
def besideOneTone : Surroundings := { besideBrokenTones with disk := (styledTree oneTone).toDisk }

theorem exists_run_besideOneTone :
    ∃ output, Invocation.run besideOneTone (letterOptions none (some "data")) = .ok output := by
  rw [Invocation.exists_run_eq_ok_iff, Invocation.exists_reaches_iff]
  refine ⟨not_blank_letterOptions none _, "data", rfl, fun k _ => ?_⟩
  by_cases hstyle : k = .style
  · subst hstyle
    exact ⟨_, load_style_styledTree oneTone⟩
  · by_cases htone : k = .tone
    · subst htone
      exact ⟨_, load_oneTone⟩
    · exact ⟨[], load_other_styledTree oneTone hstyle htone⟩

end Stylebook
