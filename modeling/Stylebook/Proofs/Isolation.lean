/-
  Stylebook.Proofs.Isolation

  A run reads nothing but what it is asked for. What it gives is settled by what the
  options ask for (`CommandLine.Options.SameRequest`), the data directory, and what the
  files of the collections asked for read as (`Invocation.run_congr`). So neither the
  spelling of the command line nor the words it was split into matter, nor the variable
  where a directory is given, nor any file of another collection
  (`run_reads_what_is_asked_for`).
-/

import Stylebook.Proofs.Disk.Change
import Stylebook.Proofs.Invocation

namespace Stylebook

open CommandLine (Options)

/-! ## Requests -/

namespace CommandLine.Options

variable {o o' : Options} {k : Kind}

/-- Options that ask for the same: the same flags and collections, and in a search the same
    words with single spaces between them. -/
structure SameRequest (o o' : Options) : Prop where
  list : o'.list = o.list
  json : o'.json = o.json
  kind : o'.kind = o.kind
  joined : o.list = false → o'.joined = o.joined

theorem SameRequest.refl (o : Options) : o.SameRequest o := ⟨rfl, rfl, rfl, fun _ => rfl⟩

theorem SameRequest.kinds (h : o.SameRequest o') : o'.kinds = o.kinds := by
  rw [Options.kinds, Options.kinds, h.kind]

end CommandLine.Options

namespace Invocation

variable {s s' : Surroundings} {o o' : Options} {arguments arguments' : List String}

/-- The query is looked for in the joined words only. -/
theorem taskOf_congr (h : o.SameRequest o') : taskOf o' = taskOf o := by
  rw [taskOf, taskOf, h.list]
  cases hlist : o.list with
  | true => rfl
  | false =>
    have hquery : o'.query? = o.query? := by
      show (if Text.allBlank o'.joined = true then none else some o'.joined) = o.query?
      rw [h.joined hlist]
      rfl
    rw [hquery]

/-- The files of the collections asked for read alike. -/
def SameFiles (s s' : Surroundings) (o : Options) (directory : String) : Prop :=
  ∀ k, o.Asks k → s'.disk.read (k.path directory) = s.disk.read (k.path directory)

/-- The same request gives the same result, in whatever surroundings, if the data directory is
    the same and the files asked for read alike in it. -/
theorem run_congr (hrequest : o.SameRequest o')
    (hdirectory : Settings.directory s' o'.directory = Settings.directory s o.directory)
    (hfiles : ∀ directory, Settings.directory s o.directory = .ok directory →
      SameFiles s s' o directory) : run s' o' = run s o := by
  have htask := taskOf_congr hrequest
  have hplace : directoryOf s' o' = directoryOf s o := by
    rw [directoryOf, directoryOf, hdirectory]
  rw [run, run, htask, hplace, hrequest.json]
  -- The tasks and the directories agree, so only the catalogs are left to compare.
  rcases taskOf o with fault | task
  · rfl
  · rcases hsettings : Settings.directory s o.directory with fault | directory
    · rw [directoryOf, hsettings]
      rfl
    · have hloads : ∀ k ∈ o.kinds, k.load s'.disk directory = k.load s.disk directory := by
        intro k hk
        -- A collection is loaded from its file alone.
        rw [Kind.load, Kind.load, hfiles directory hsettings k (Options.mem_kinds_iff.1 hk)]
      have hcatalog : catalogOf s' o' directory = catalogOf s o directory := by
        rw [catalogOf, catalogOf, hrequest.kinds, Catalog.load_congr hloads]
      simp only [directoryOf, hsettings, bind, Except.bind, hcatalog]

/-- A call ends as its run does. -/
theorem outcome_congr (hparse : CommandLine.parse arguments = .ok o)
    (hparse' : CommandLine.parse arguments' = .ok o') (h : run s' o' = run s o) :
    outcome s' arguments' = outcome s arguments := by
  simp only [outcome, hparse, hparse', h]

/-- A change of a file that is not asked for does not change how a call ends. -/
theorem outcome_of_fileChanged {t t' : Tree} {x : Location} {k : Kind} {directory : String}
    (hparse : CommandLine.parse arguments = .ok o) (hk : ¬ o.Asks k)
    (hdirectory : Settings.directory (s.withTree t) o.directory = .ok directory)
    (hx : t.resolve (k.path directory) = .ok x) (h : t.FileChanged t' x) :
    outcome (s.withTree t') arguments = outcome (s.withTree t) arguments := by
  refine outcome_congr hparse hparse (run_congr (.refl o) ?_ ?_)
  · exact Settings.directory_of_fileChanged s o.directory h
  · intro used hused j hj
    rw [hdirectory] at hused
    cases hused
    have hne : j ≠ k := by
      rintro rfl
      exact hk hj
    exact h.read_path_eq hx hne

end Invocation

/-- A run reads nothing but what it is asked for:

    * two calls that make the same request, in whatever words and options, give the same
      output or the same fault if they use the same data directory and the files of the
      collections asked for read alike in it, whatever else differs;
    * where a directory is given, the variable does not matter, whether it is set, and to what;
    * in any tree, a change of the file of a collection that is not asked for, to another file
      or to nothing or from nothing, does not matter.

    What a call writes to a log is left out of how it ends. -/
theorem run_reads_what_is_asked_for :
    (∀ (s s' : Surroundings) (arguments arguments' : List String) (o o' : Options)
      (directory : String),
      CommandLine.parse arguments = .ok o → CommandLine.parse arguments' = .ok o' →
      o.SameRequest o' →
      Settings.directory s o.directory = .ok directory →
      Settings.directory s' o'.directory = .ok directory →
      Invocation.SameFiles s s' o directory →
      Invocation.run s' o' = Invocation.run s o ∧
        Invocation.outcome s' arguments' = Invocation.outcome s arguments) ∧
    (∀ (s : Surroundings) (arguments : List String) (o : Options) (directory : String),
      CommandLine.parse arguments = .ok o → o.directory = some directory →
      ∀ setting, Invocation.outcome { s with setting := setting } arguments
        = Invocation.outcome s arguments) ∧
    ∀ (s : Surroundings) (t t' : Tree) (x : Location) (k : Kind) (arguments : List String)
      (o : Options) (directory : String),
      CommandLine.parse arguments = .ok o → ¬ o.Asks k →
      Settings.directory (s.withTree t) o.directory = .ok directory →
      t.resolve (k.path directory) = .ok x → t.FileChanged t' x →
      Invocation.outcome (s.withTree t') arguments
        = Invocation.outcome (s.withTree t) arguments := by
  refine ⟨?_, ?_, ?_⟩
  · intro s s' arguments arguments' o o' directory hparse hparse' hrequest hs hs' hfiles
    have hrun : Invocation.run s' o' = Invocation.run s o := by
      refine Invocation.run_congr hrequest (hs'.trans hs.symm) fun used hused => ?_
      rw [hs] at hused
      cases hused
      exact hfiles
    exact ⟨hrun, Invocation.outcome_congr hparse hparse' hrun⟩
  · intro s arguments o directory hparse hgiven setting
    have hdirectory : Settings.directory { s with setting := setting } o.directory
        = Settings.directory s o.directory := by
      rw [hgiven]
      rfl
    exact Invocation.outcome_congr hparse hparse
      (Invocation.run_congr (.refl o) hdirectory fun _ _ _ _ => rfl)
  · intro s t t' x k arguments o directory hparse hk hdirectory hx h
    exact Invocation.outcome_of_fileChanged hparse hk hdirectory hx h

/-! ## A broken file that is not asked for -/

/-- Other tones in the data directory are a change of their file. -/
theorem fileChanged_styledTree (tones tones' : String) :
    (styledTree tones).FileChanged (styledTree tones') ["tone-variations.json", "data"] where
  here := rfl
  elsewhere y hy := by
    cases y with
    | nil => rfl
    | cons name parent =>
      have hskip : (name :: parent == ["tone-variations.json", "data"]) = false :=
        beq_false_of_ne hy
      simp only [Tree.node?, styledTree, List.lookup_cons, hskip]
  before := nofun
  after := nofun

/-- Two spellings of one search among the styles, one of them beside a broken file of tones and
    with a variable that is set to nothing: they end alike, and so does the first one without
    the variable, or with the file repaired. -/
theorem run_reads_what_is_asked_for_sample :
    Invocation.outcome ⟨none, none, (styledTree "[]").toDisk⟩
        ["a", "--type", "STYLES", "-d=data", "b"]
      = Invocation.outcome besideBrokenTones ["-tstyle", "-ddata", "a b"] ∧
    Invocation.outcome { besideBrokenTones with setting := none } ["-tstyle", "-ddata", "a b"]
      = Invocation.outcome besideBrokenTones ["-tstyle", "-ddata", "a b"] ∧
    Invocation.outcome (besideBrokenTones.withTree (styledTree "[]"))
        ["-tstyle", "-ddata", "a b"]
      = Invocation.outcome besideBrokenTones ["-tstyle", "-ddata", "a b"] := by
  obtain ⟨hcalls, hvariable, hchange⟩ := run_reads_what_is_asked_for
  have hparse : CommandLine.parse ["-tstyle", "-ddata", "a b"]
      = .ok ⟨["a b"], false, false, some .style, some "data"⟩ := rfl
  refine ⟨?_, ?_, ?_⟩
  · have hparse' : CommandLine.parse ["a", "--type", "STYLES", "-d=data", "b"]
        = .ok ⟨["a", "b"], false, false, some .style, some "data"⟩ := rfl
    have hrequest : Options.SameRequest ⟨["a b"], false, false, some .style, some "data"⟩
        ⟨["a", "b"], false, false, some .style, some "data"⟩ := ⟨rfl, rfl, rfl, fun _ => rfl⟩
    refine (hcalls _ _ _ _ _ _ "data" hparse hparse' hrequest rfl rfl ?_).2
    intro k hk
    obtain rfl : .style = k := Option.some.inj (hk.resolve_left nofun)
    exact (read_styledTree "[]").1.trans (read_styledTree brokenTones).1.symm
  · exact hvariable _ _ _ "data" hparse rfl none
  · have htones : ¬ Options.Asks ⟨["a b"], false, false, some .style, some "data"⟩ .tone := by
      rintro (h | h)
      · cases h
      · cases h
    exact hchange besideBrokenTones (styledTree brokenTones) (styledTree "[]") _ .tone _ _ "data"
      hparse htones rfl (resolve_styledTree brokenTones .tone) (fileChanged_styledTree _ _)

end Stylebook
