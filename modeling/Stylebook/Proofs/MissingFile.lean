/-
  Stylebook.Proofs.MissingFile

  Taking a data file away empties its collection and does nothing else. The data directory is
  found as before, and every other file reads as before (`Stylebook.Proofs.Disk.Change`), so a
  run that reached a catalog reaches the same catalog without the entries of that collection
  (`Invocation.Reaches.unlink`). A search then finds the same in the other collections, and
  its total is smaller by what it found in that one (`Catalog.total_search_set_nil`).

  A file that does not load is in the way of the whole run; without it the run goes on as if
  its collection had not been asked for (`missing_file_empties_its_collection`).
-/

import Stylebook.Proofs.Disk.Change
import Stylebook.Proofs.Invocation
import Stylebook.Proofs.SearchExact

namespace Stylebook

open CommandLine (Options)
open Invocation (Reaches)

/-! ## A catalog with one collection emptied -/

namespace Catalog

variable {j k : Kind}

theorem matched_set_nil_self (c : Catalog) (query : String) (k : Kind) :
    ((c.set k []).search query).matched k = [] :=
  matched_eq_nil (c.set_entries_self k [])

theorem matched_set_nil_of_ne (c : Catalog) (query : String) (h : j ≠ k) :
    ((c.set k []).search query).matched j = (c.search query).matched j :=
  matched_congr (c.set_entries_of_ne [] h.symm)

/-- What was found in the collection is missing in the total. -/
theorem total_search_set_nil (c : Catalog) (query : String) (k : Kind) :
    ((c.set k []).search query).total + ((c.search query).matched k).length
      = (c.search query).total := by
  have hself := c.matched_set_nil_self query k
  have hother (j : Kind) (h : j ≠ k) := c.matched_set_nil_of_ne query h
  rw [total_search, total_search]
  -- One of the five lists is empty, and the others are as they were.
  cases k <;> simp only [hself, hother, ne_eq, reduceCtorEq, not_false_eq_true, List.length_nil]
    <;> omega

end Catalog

/-! ## Runs without a file -/

namespace Invocation

variable {s : Surroundings} {t : Tree} {o : Options} {c : Catalog} {k : Kind}
  {directory : String}

/-- Without a file, a run reaches a catalog in which the collection of that file is empty, and
    the others that are asked for are as they load from the tree with the file. -/
theorem reaches_unlink (hblank : ¬ o.Blank)
    (hdirectory : Settings.directory (s.withTree t) o.directory = .ok directory)
    (hgone : k ∈ o.kinds →
      t.IsFile (k.path directory) ∨ ∃ es, k.load t.toDisk directory = .ok es)
    (hempty : c.entries k = [])
    (hothers : ∀ j, j ≠ k → (j ∈ o.kinds → j.load t.toDisk directory = .ok (c.entries j)) ∧
      (j ∉ o.kinds → c.entries j = [])) :
    Reaches (s.withTree (t.unlink (k.path directory))) o c := by
  refine ⟨hblank, directory, ?_, Catalog.load_eq_ok_iff.2 fun j => ?_⟩
  · rw [Settings.directory_unlink]
    exact hdirectory
  · by_cases hj : j = k
    · subst hj
      rw [hempty]
      exact ⟨fun hasked => Tree.load_unlink_self (hgone hasked), fun _ => rfl⟩
    · obtain ⟨hin, hout⟩ := hothers j hj
      exact ⟨fun hasked => (t.load_unlink_of_ne hj).trans (hin hasked), hout⟩

/-- A run that reaches a catalog reaches it without the entries of a collection whose file is
    taken away. -/
theorem Reaches.unlink (h : Reaches (s.withTree t) o c)
    (hdirectory : Settings.directory (s.withTree t) o.directory = .ok directory) :
    Reaches (s.withTree (t.unlink (k.path directory))) o (c.set k []) := by
  obtain ⟨hblank, used, hused, hload⟩ := h
  rw [hdirectory] at hused
  cases hused
  have hentries := Catalog.load_eq_ok_iff.1 hload
  refine reaches_unlink hblank hdirectory ?_ (c.set_entries_self k []) fun j hj => ?_
  · exact fun hasked => .inr ⟨_, (hentries k).1 hasked⟩
  · rw [c.set_entries_of_ne [] hj.symm]
    exact hentries j

/-- Where the file of a collection does not load, the run without it reaches what the other
    collections come to that are asked for. -/
theorem reaches_unlink_of_isFile {rest : Catalog} (hblank : ¬ o.Blank)
    (hdirectory : Settings.directory (s.withTree t) o.directory = .ok directory)
    (hfile : t.IsFile (k.path directory))
    (hrest : Catalog.load t.toDisk directory (o.kinds.filter (· ≠ k)) = .ok rest) :
    Reaches (s.withTree (t.unlink (k.path directory))) o rest ∧ rest.entries k = [] := by
  have hentries := Catalog.load_eq_ok_iff.1 hrest
  have hempty : rest.entries k = [] := (hentries k).2 (by simp)
  refine ⟨reaches_unlink hblank hdirectory (fun _ => .inl hfile) hempty fun j hj => ?_, hempty⟩
  have hmem : j ∈ o.kinds.filter (· ≠ k) ↔ j ∈ o.kinds := by simp [hj]
  rw [← hmem]
  exact hentries j

/-- The fault of a run is that of the only collection that does not load. -/
theorem run_of_onlyFault {fault : LoadFault} (hblank : ¬ o.Blank)
    (hdirectory : Settings.directory s o.directory = .ok directory) (hk : o.Asks k)
    (hfault : k.load s.disk directory = .error fault)
    (hothers : ∀ j, j ≠ k → o.Asks j → ∃ es, j.load s.disk directory = .ok es) :
    run s o = .error (.load fault) := by
  obtain ⟨before, after, hall, hnot⟩ := k.exists_all_eq
  refine run_eq_load_iff.2 ⟨hblank, directory, k, hdirectory, before, after, hall, hk, hfault, ?_⟩
  intro j hj
  have hne : j ≠ k := by
    rintro rfl
    exact hnot hj
  exact hothers j hne

/-- A search prints what it finds in the catalog that it reaches. -/
theorem Reaches.run_search (h : Reaches s o c) (hsearch : o.list = false) :
    run s o = .ok (Report.ofFinding (c.search o.joined) o.json) := by
  have htask : taskSet o = .search o.joined := by
    rw [taskSet, hsearch]
    rfl
  refine run_eq_ok_iff.2 ⟨c, h, ?_⟩
  rw [htask]
  rfl

end Invocation

/-- Taking a data file away empties its collection and leaves the rest of a search alone, in any
    tree and for any collection, whether it is asked for or not:

    * if the run succeeded, it succeeds without the file as well; it reaches the same catalog
      with no entries in that collection, and its search has the same query, finds nothing in
      that collection and the same as before in each other one, and the total is smaller by
      what was found in that collection;
    * if the file was the only one asked for that does not load, the run failed with its
      fault; without the file it succeeds, finds nothing in that collection, and finds in each
      other one what a search finds in the catalog of the other collections asked for.

    No directory is taken away, and the data directory is the same one. -/
theorem missing_file_empties_its_collection (s : Surroundings) (t : Tree) (o : Options)
    (k : Kind) (directory : String) (hsearch : o.list = false)
    (hdirectory : Settings.directory (s.withTree t) o.directory = .ok directory) :
    Settings.directory (s.withTree (t.unlink (k.path directory))) o.directory = .ok directory ∧
    (∀ output, Invocation.run (s.withTree t) o = .ok output →
      ∃ c, Reaches (s.withTree t) o c ∧
        output = Report.ofFinding (c.search o.joined) o.json ∧
        ∃ c', Reaches (s.withTree (t.unlink (k.path directory))) o c' ∧
          Invocation.run (s.withTree (t.unlink (k.path directory))) o
            = .ok (Report.ofFinding (c'.search o.joined) o.json) ∧
          (c'.search o.joined).query = (c.search o.joined).query ∧
          (c'.search o.joined).matched k = [] ∧
          (∀ j, j ≠ k → (c'.search o.joined).matched j = (c.search o.joined).matched j) ∧
          (c'.search o.joined).total + ((c.search o.joined).matched k).length
            = (c.search o.joined).total) ∧
    ∀ fault, ¬ o.Blank → o.Asks k → t.IsFile (k.path directory) →
      k.load t.toDisk directory = .error fault →
      (∀ j, j ≠ k → o.Asks j → ∃ es, j.load t.toDisk directory = .ok es) →
      Invocation.run (s.withTree t) o = .error (.load fault) ∧
      ∃ c rest, Catalog.load t.toDisk directory (o.kinds.filter (· ≠ k)) = .ok rest ∧
        Reaches (s.withTree (t.unlink (k.path directory))) o c ∧
        Invocation.run (s.withTree (t.unlink (k.path directory))) o
          = .ok (Report.ofFinding (c.search o.joined) o.json) ∧
        (c.search o.joined).matched k = [] ∧
        ∀ j, j ≠ k → (c.search o.joined).matched j = (rest.search o.joined).matched j := by
  refine ⟨?_, ?_, ?_⟩
  · rw [Settings.directory_unlink]
    exact hdirectory
  · -- No other collection needs the file.
    intro output hrun
    obtain ⟨c, hreaches, -⟩ := Invocation.run_eq_ok_iff.1 hrun
    have houtput : output = Report.ofFinding (c.search o.joined) o.json := by
      rw [hreaches.run_search hsearch] at hrun
      exact (Except.ok.inj hrun).symm
    have hwithout : Reaches (s.withTree (t.unlink (k.path directory))) o (c.set k []) :=
      hreaches.unlink hdirectory
    refine ⟨c, hreaches, houtput, c.set k [], hwithout, hwithout.run_search hsearch, rfl,
      c.matched_set_nil_self _ k, fun j => c.matched_set_nil_of_ne _, ?_⟩
    exact c.total_search_set_nil o.joined k
  · -- The file is in the way.
    intro fault hblank hk hfile hfault hothers
    have hrest : ∃ rest, Catalog.load t.toDisk directory (o.kinds.filter (· ≠ k)) = .ok rest := by
      refine Catalog.exists_load_iff.2 fun j hj => ?_
      have hmem : j ∈ o.kinds ∧ j ≠ k := by simpa using hj
      exact hothers j hmem.2 (Options.mem_kinds_iff.1 hmem.1)
    obtain ⟨rest, hrest⟩ := hrest
    obtain ⟨hreaches, hempty⟩ :=
      Invocation.reaches_unlink_of_isFile hblank hdirectory hfile hrest
    refine ⟨Invocation.run_of_onlyFault hblank hdirectory hk hfault hothers, rest, rest, hrest,
      hreaches, hreaches.run_search hsearch, Catalog.matched_eq_nil hempty, fun j _ => rfl⟩

/-! ## A search without tones -/

/-- The path of the sample's tones leads to a file. -/
theorem isFile_styledTree (tones : String) :
    (styledTree tones).IsFile (Kind.tone.path "data") :=
  ⟨_, _, resolve_styledTree tones .tone, rfl⟩

/-- A tone that was found is gone with its file, and all else stays; with a broken file the run
    fails, and without it the run succeeds. -/
theorem missing_file_empties_its_collection_sample :
    (∃ c c', Reaches (besideBrokenTones.withTree (styledTree oneTone))
        (letterOptions none (some "data")) c ∧
      Reaches (besideBrokenTones.withTree ((styledTree oneTone).unlink (Kind.tone.path "data")))
        (letterOptions none (some "data")) c' ∧
      ((c.search "a").matched .tone).length = 1 ∧
      (c'.search "a").matched .tone = [] ∧
      (c'.search "a").matched .style = (c.search "a").matched .style ∧
      (c'.search "a").total + 1 = (c.search "a").total) ∧
    Invocation.run (besideBrokenTones.withTree (styledTree brokenTones))
        (letterOptions none (some "data")) = .error (.load brokenTonesFault) ∧
    ∃ output, Invocation.run
        (besideBrokenTones.withTree ((styledTree brokenTones).unlink (Kind.tone.path "data")))
        (letterOptions none (some "data")) = .ok output := by
  constructor
  · obtain ⟨output, hrun⟩ := exists_run_besideOneTone
    obtain ⟨-, hkept, -⟩ := missing_file_empties_its_collection besideBrokenTones
      (styledTree oneTone) (letterOptions none (some "data")) .tone "data" rfl rfl
    obtain ⟨c, hc, -, c', hc', -, -, hnone, hothers, htotal⟩ := hkept output hrun
    have hentries : c.entries .tone = [Kind.tone.entryOf ((), [("name", .string "A")])] := by
      obtain ⟨-, used, hused, hload⟩ := hc
      cases hused
      have htone := (Catalog.load_eq_ok_iff.1 hload .tone).1 (Kind.mem_all .tone)
      exact (Except.ok.inj (load_oneTone.symm.trans htone)).symm
    have hfound : ((c.search "a").matched .tone).length = 1 := by
      show (searchEntries (c.entries .tone) "a").length = 1
      rw [hentries]
      rfl
    refine ⟨c, c', hc, hc', hfound, hnone, hothers .style (by decide), ?_⟩
    rw [← hfound]
    exact htotal
  · obtain ⟨-, -, hrepaired⟩ := missing_file_empties_its_collection besideBrokenTones
      (styledTree brokenTones) (letterOptions none (some "data")) .tone "data" rfl rfl
    have hothers : ∀ j, j ≠ .tone → (letterOptions none (some "data")).Asks j →
        ∃ es, j.load (styledTree brokenTones).toDisk "data" = .ok es := by
      intro j htone _
      by_cases hstyle : j = .style
      · subst hstyle
        exact ⟨_, load_style_styledTree brokenTones⟩
      · exact ⟨[], load_other_styledTree brokenTones hstyle htone⟩
    obtain ⟨hfailed, c, rest, -, -, hrun, -⟩ := hrepaired brokenTonesFault
      (not_blank_letterOptions none _) (.inl rfl) (isFile_styledTree brokenTones)
      load_brokenTones hothers
    exact ⟨hfailed, _, hrun⟩

end Stylebook
