/-
  Stylebook.Proofs.TypeFilter

  Asking for one collection is a projection. A run that reaches a catalog also reaches, with
  only one of its collections asked for, the catalog with the entries of that collection and
  no others (`Catalog.only`, `Invocation.Reaches.only`). No later step mixes collections: a
  search finds in each collection what stands there, and the total adds up
  (`Catalog.total_search_eq_add`); a listing shows each collection in a table of its own,
  which other collections do not change (`Report.listing_only`).

  A run for one collection needs no other file (`type_filter_projects`).
-/

import Stylebook.Proofs.Invocation
import Stylebook.Proofs.SearchExact

namespace Stylebook

open CommandLine (Options)
open Invocation (Reaches taskSet)

/-! ## One collection of a catalog -/

namespace Catalog

variable {j k : Kind}

/-- A catalog with the entries of one collection only. -/
def only (c : Catalog) (k : Kind) : Catalog := empty.set k (c.entries k)

theorem entries_only_self (c : Catalog) (k : Kind) : (c.only k).entries k = c.entries k :=
  set_entries_self empty k (c.entries k)

theorem entries_only_of_ne (c : Catalog) (h : j ≠ k) : (c.only k).entries j = [] := by
  rw [only, set_entries_of_ne _ _ h.symm]
  rfl

theorem matched_only_self (c : Catalog) (query : String) (k : Kind) :
    ((c.only k).search query).matched k = (c.search query).matched k :=
  matched_congr (c.entries_only_self k)

theorem matched_only_of_ne (c : Catalog) (query : String) (h : j ≠ k) :
    ((c.only k).search query).matched j = [] :=
  matched_eq_nil (c.entries_only_of_ne h)

theorem total_search_only (c : Catalog) (query : String) (k : Kind) :
    ((c.only k).search query).total = ((c.search query).matched k).length := by
  have hself := c.matched_only_self query k
  have hother (j : Kind) (h : j ≠ k) := c.matched_only_of_ne query h
  rw [total_search]
  -- Four of the five lists are empty.
  cases k <;> simp [hself, hother]

/-- The total of a search is the sum of the totals for the single collections. -/
theorem total_search_eq_add (c : Catalog) (query : String) :
    (c.search query).total = ((c.only .style).search query).total
      + ((c.only .tone).search query).total + ((c.only .outline).search query).total
      + ((c.only .industry).search query).total
      + ((c.only .blacklist).search query).total := by
  rw [total_search c query]
  simp only [total_search_only]

end Catalog

/-! ## Listings -/

namespace Report

variable {c c' : Catalog} {k : Kind}

/-- What a listing starts with. -/
def listingOpening : List String := ["", "📚 Blog Style Reference Data", ""]

/-- The table of a collection is settled by its entries. -/
theorem listTable_congr (h : c'.entries k = c.entries k) : listTable c' k = listTable c k := by
  rw [listTable, listTable, Catalog.count, Catalog.count, h]

theorem listTable_eq_nil (h : c.entries k = []) : listTable c k = [] := by
  rw [listTable, h]
  rfl

/-- In a listing, the table of a collection stands between those of the collections before and
    after it. -/
theorem exists_listing_eq (c : Catalog) (k : Kind) :
    ∃ earlier later, Kind.all = earlier ++ k :: later ∧
      listing c = listingOpening ++ earlier.flatMap (listTable c) ++ listTable c k
        ++ (later.flatMap (listTable c) ++ summary c) := by
  obtain ⟨earlier, later, hall⟩ := List.append_of_mem k.mem_all
  refine ⟨earlier, later, hall, ?_⟩
  rw [listing, hall, List.flatMap_append, List.flatMap_cons]
  simp only [listingOpening, List.append_assoc]

/-- With one collection there is just its table between the opening and the summary. -/
theorem listing_only (c : Catalog) (k : Kind) :
    listing (c.only k) = listingOpening ++ listTable c k ++ summary (c.only k) := by
  have hself : listTable (c.only k) k = listTable c k := listTable_congr (c.entries_only_self k)
  have hother (j : Kind) (h : j ≠ k) : listTable (c.only k) j = [] :=
    listTable_eq_nil (c.entries_only_of_ne h)
  rw [listing]
  show listingOpening ++ Kind.all.flatMap (listTable (c.only k)) ++ _ = _
  -- Four of the five tables are empty.
  cases k <;> simp [Kind.all, hself, hother]

end Report

/-! ## Runs for one collection -/

/-- The same options with one collection asked for. -/
def CommandLine.Options.only (o : Options) (k : Kind) : Options := { o with kind := some k }

namespace Invocation

variable {s : Surroundings} {o : Options} {c : Catalog} {k : Kind} {directory : String}

/-- A run for one of the collections that are asked for reaches that collection alone. -/
theorem Reaches.only (h : Reaches s o c) (hk : o.Asks k) : Reaches s (o.only k) (c.only k) := by
  obtain ⟨hblank, directory, hdirectory, hload⟩ := h
  have hentries : k.load s.disk directory = .ok (c.entries k) :=
    (Catalog.load_eq_ok_iff.1 hload k).1 (Options.mem_kinds_iff.2 hk)
  refine ⟨hblank, directory, hdirectory, Catalog.load_eq_ok_iff.2 fun j => ?_⟩
  -- Only the one collection is asked for now.
  show (j ∈ [k] → _) ∧ (j ∉ [k] → _)
  rw [List.mem_singleton]
  constructor
  · rintro rfl
    rw [c.entries_only_self j]
    exact hentries
  · exact fun hne => c.entries_only_of_ne hne

/-- A run for one collection succeeds if this collection loads. -/
theorem run_only_iff (hblank : ¬ o.Blank)
    (hdirectory : Settings.directory s o.directory = .ok directory) :
    (∃ output, run s (o.only k) = .ok output) ↔ ∃ es, k.load s.disk directory = .ok es := by
  have hasks (j : Kind) : (o.only k).Asks j ↔ k = j := by simp [Options.Asks, Options.only]
  rw [exists_run_eq_ok_iff, exists_reaches_iff]
  simp only [hasks, forall_eq']
  constructor
  · rintro ⟨-, used, hused, hload⟩
    have hsame : Settings.directory s o.directory = .ok used := hused
    rw [hdirectory] at hsame
    cases hsame
    exact hload
  · exact fun hload => ⟨hblank, directory, hdirectory, hload⟩

end Invocation

/-- Asking for one collection is a projection. Where a run for all collections succeeds, it
    prints what its task makes of some catalog, and for every kind:

    * the run for that kind succeeds as well, and prints what the task makes of the catalog
      with the entries of that collection and no others;
    * a search finds in that collection what it finds without the filter, with the same
      records, order and tags, and nothing in the other collections; the five totals add up
      to the total without the filter;
    * the text listing has the table of that collection just as it stands in the listing
      without the filter, and no other table.

    Where there is something to do and the data directory is known, a run for one collection
    succeeds exactly if that collection loads, whatever the other files hold. -/
theorem type_filter_projects (s : Surroundings) (o : Options) :
    (∀ output, o.kind = none → Invocation.run s o = .ok output →
      ∃ c, Reaches s o c ∧ output = Invocation.render (taskSet o) o.json c ∧
        (∀ k, Reaches s (o.only k) (c.only k) ∧
          Invocation.run s (o.only k)
            = .ok (Invocation.render (taskSet o) o.json (c.only k)) ∧
          (c.only k).entries k = c.entries k ∧ (∀ j, j ≠ k → (c.only k).entries j = []) ∧
          (∀ query, ((c.only k).search query).matched k = (c.search query).matched k ∧
            ∀ j, j ≠ k → ((c.only k).search query).matched j = []) ∧
          Report.ofCatalog (c.only k) false = Text.unlines
            (Report.listingOpening ++ Report.listTable c k ++ Report.summary (c.only k)) ∧
          ∃ earlier later, Kind.all = earlier ++ k :: later ∧
            Report.ofCatalog c false = Text.unlines
              (Report.listingOpening ++ earlier.flatMap (Report.listTable c)
                ++ Report.listTable c k
                ++ (later.flatMap (Report.listTable c) ++ Report.summary c))) ∧
        ∀ query, (c.search query).total = ((c.only .style).search query).total
          + ((c.only .tone).search query).total + ((c.only .outline).search query).total
          + ((c.only .industry).search query).total
          + ((c.only .blacklist).search query).total) ∧
    ∀ k directory, ¬ o.Blank → Settings.directory s o.directory = .ok directory →
      ((∃ output, Invocation.run s (o.only k) = .ok output) ↔
        ∃ es, k.load s.disk directory = .ok es) := by
  constructor
  · intro output hkind hrun
    obtain ⟨c, hreaches, houtput⟩ := Invocation.run_eq_ok_iff.1 hrun
    refine ⟨c, hreaches, houtput, fun k => ?_, fun query => c.total_search_eq_add query⟩
    have honly : Reaches s (o.only k) (c.only k) := hreaches.only (.inl hkind)
    have hfiltered : Invocation.run s (o.only k)
        = .ok (Invocation.render (taskSet o) o.json (c.only k)) :=
      Invocation.run_eq_ok_iff.2 ⟨c.only k, honly, rfl⟩
    refine ⟨honly, hfiltered, c.entries_only_self k, fun j => c.entries_only_of_ne, ?_, ?_, ?_⟩
    · intro query
      exact ⟨c.matched_only_self query k, fun j => c.matched_only_of_ne query⟩
    · rw [← Report.listing_only]
      rfl
    · obtain ⟨earlier, later, hall, hlisting⟩ := Report.exists_listing_eq c k
      refine ⟨earlier, later, hall, ?_⟩
      rw [← hlisting]
      rfl
  · exact fun k directory => Invocation.run_only_iff

/-! ## A search among the styles -/

/-- With the filter the style is found as without it, and no tone; a broken file of tones is in
    the way of the tones only. -/
theorem type_filter_projects_sample :
    (∃ c, Reaches besideOneTone (letterOptions none (some "data")) c ∧
      (∃ output, Invocation.run besideOneTone (letterOptions (some .style) (some "data"))
        = .ok output) ∧
      ((c.only .style).search "a").matched .style = (c.search "a").matched .style ∧
      ((c.only .style).search "a").matched .tone = []) ∧
    (∃ output, Invocation.run besideBrokenTones (letterOptions (some .style) (some "data"))
      = .ok output) ∧
    ¬ ∃ output, Invocation.run besideBrokenTones (letterOptions (some .tone) (some "data"))
      = .ok output := by
  refine ⟨?_, ?_, ?_⟩
  · obtain ⟨output, hrun⟩ := exists_run_besideOneTone
    obtain ⟨c, hreaches, -, hkinds, -⟩ :=
      (type_filter_projects besideOneTone (letterOptions none (some "data"))).1 output rfl hrun
    obtain ⟨-, hfiltered, -, -, hsearch, -⟩ := hkinds .style
    exact ⟨c, hreaches, ⟨_, hfiltered⟩, (hsearch "a").1, (hsearch "a").2 .tone (by decide)⟩
  · have hiff := (type_filter_projects besideBrokenTones (letterOptions none (some "data"))).2
      .style "data" (not_blank_letterOptions none _) rfl
    exact hiff.2 ⟨_, load_style_styledTree brokenTones⟩
  · have hiff := (type_filter_projects besideBrokenTones (letterOptions none (some "data"))).2
      .tone "data" (not_blank_letterOptions none _) rfl
    intro hrun
    obtain ⟨es, hes⟩ := hiff.1 hrun
    have hbroken : Kind.tone.load besideBrokenTones.disk "data" = .error brokenTonesFault :=
      load_brokenTones
    rw [hbroken] at hes
    cases hes

end Stylebook
