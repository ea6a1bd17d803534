/-
  Stylebook.Proofs.AllOrNothing

  Loading a list of collections is all or nothing. The collections are loaded one after
  another into one catalog, and yet the outcome is settled by the loads of the single
  collections: the catalog holds what each of them gives, in whatever order and however
  often they are named (`Catalog.load_of_same_kinds`), or the fault is that of the first one
  in the list that does not load (`Catalog.FirstFailing`), and then nothing behind it counts
  (`Catalog.load_of_same_front`). `catalog_loads_all_or_nothing` puts this together.
-/

import Stylebook.Proofs.Invocation

namespace Stylebook

/-- A collection loads alike from disks on which its file reads alike. -/
theorem Kind.load_congr {disk disk' : Disk} {directory : String} {k : Kind}
    (h : disk'.read (k.path directory) = disk.read (k.path directory)) :
    k.load disk' directory = k.load disk directory := by
  rw [load, load, h]

namespace Catalog

variable {disk disk' : Disk} {directory : String} {kinds kinds' : List Kind} {k : Kind}
  {fault : LoadFault}

/-- The first collection in a list that does not load, and its fault; `before` stands in front
    of it. -/
def FirstFailing (disk : Disk) (directory : String) (kinds before : List Kind) (k : Kind)
    (fault : LoadFault) : Prop :=
  (∃ after, kinds = before ++ k :: after) ∧
    (∀ j ∈ before, ∃ es, j.load disk directory = .ok es) ∧
    k.load disk directory = .error fault

theorem load_eq_error_iff_firstFailing :
    load disk directory kinds = .error fault ↔
      ∃ before k, FirstFailing disk directory kinds before k fault := by
  rw [load_eq_error_iff]
  constructor
  · rintro ⟨before, k, after, hkinds, hbefore, hk⟩
    exact ⟨before, k, ⟨after, hkinds⟩, hbefore, hk⟩
  · rintro ⟨before, k, ⟨after, hkinds⟩, hbefore, hk⟩
    exact ⟨before, k, after, hkinds, hbefore, hk⟩

/-- The order in which collections are asked for does not matter, nor how often. -/
theorem load_of_same_kinds {c : Catalog} (hkinds : ∀ k, k ∈ kinds' ↔ k ∈ kinds)
    (hload : load disk directory kinds = .ok c) : load disk directory kinds' = .ok c := by
  rw [load_eq_ok_iff] at hload ⊢
  intro k
  obtain ⟨hin, hout⟩ := hload k
  exact ⟨fun hk => hin ((hkinds k).1 hk), fun hk => hout fun hk' => hk ((hkinds k).2 hk')⟩

/-- What fails first decides, whatever is asked for behind it and whatever the other files
    hold. -/
theorem load_of_same_front {before : List Kind}
    (hfirst : FirstFailing disk directory kinds before k fault) (after : List Kind)
    (hread : ∀ j ∈ before ++ [k], disk'.read (j.path directory) = disk.read (j.path directory)) :
    load disk' directory (before ++ k :: after) = .error fault := by
  obtain ⟨-, hbefore, hk⟩ := hfirst
  rw [List.forall_mem_append, List.forall_mem_singleton] at hread
  obtain ⟨hreadBefore, hreadSelf⟩ := hread
  refine load_eq_error_iff.2 ⟨before, k, after, rfl, fun j hj => ?_, ?_⟩
  · rw [Kind.load_congr (hreadBefore j hj)]
    exact hbefore j hj
  · rw [Kind.load_congr hreadSelf]
    exact hk

end Catalog

/-- Loading a list of collections, in any order and with repetitions, is all or nothing:

    * it succeeds exactly if each collection in the list loads;
    * the catalog then holds of each of them what loading it alone gives, and of the others
      nothing; every list of the same collections gives this catalog, and so does every disk
      on which their files read alike;
    * the fault is that of the first collection in the list that does not load, it names the
      file of that collection, and neither what stands behind that collection nor any file but
      those up to it has an influence. -/
theorem catalog_loads_all_or_nothing (disk : Disk) (directory : String) (kinds : List Kind) :
    ((∃ c, Catalog.load disk directory kinds = .ok c) ↔
      ∀ k ∈ kinds, ∃ es, k.load disk directory = .ok es) ∧
    (∀ c, Catalog.load disk directory kinds = .ok c →
      (∀ k ∈ kinds, k.load disk directory = .ok (c.entries k)) ∧
      (∀ k, k ∉ kinds → c.entries k = []) ∧
      (∀ kinds', (∀ k, k ∈ kinds' ↔ k ∈ kinds) →
        Catalog.load disk directory kinds' = .ok c) ∧
      ∀ disk' : Disk, (∀ k ∈ kinds, disk'.read (k.path directory) = disk.read (k.path directory)) →
        Catalog.load disk' directory kinds = .ok c) ∧
    ∀ fault, (Catalog.load disk directory kinds = .error fault ↔
        ∃ before k, Catalog.FirstFailing disk directory kinds before k fault) ∧
      ∀ before k, Catalog.FirstFailing disk directory kinds before k fault →
        fault.path = k.path directory ∧
        ∀ (disk' : Disk) (after : List Kind),
          (∀ j ∈ before ++ [k],
            disk'.read (j.path directory) = disk.read (j.path directory)) →
          Catalog.load disk' directory (before ++ k :: after) = .error fault := by
  refine ⟨Catalog.exists_load_iff, ?_, ?_⟩
  · intro c hload
    have hentries := Catalog.load_eq_ok_iff.1 hload
    refine ⟨fun k => (hentries k).1, fun k => (hentries k).2,
      fun kinds' hkinds => Catalog.load_of_same_kinds hkinds hload, fun disk' hread => ?_⟩
    rw [Catalog.load_congr fun k hk => Kind.load_congr (hread k hk)]
    exact hload
  · intro fault
    refine ⟨Catalog.load_eq_error_iff_firstFailing, fun before k hfirst => ⟨?_, ?_⟩⟩
    · obtain ⟨-, -, hk⟩ := hfirst
      exact Kind.path_of_load hk
    · intro disk' after hread
      exact Catalog.load_of_same_front hfirst after hread

/-- Styles and a missing file load, named twice and in either order; between them and another
    missing file, the broken tones are the fault, and the list may go on in any way. -/
theorem catalog_loads_all_or_nothing_sample :
    (∃ c, Catalog.load (styledTree brokenTones).toDisk "data" [.blacklist, .style, .blacklist]
        = .ok c ∧
      Kind.style.load (styledTree brokenTones).toDisk "data" = .ok (c.entries .style) ∧
      c.entries .tone = [] ∧
      Catalog.load (styledTree brokenTones).toDisk "data" [.style, .blacklist] = .ok c) ∧
    brokenTonesFault.path = Kind.tone.path "data" ∧
    Catalog.load (styledTree brokenTones).toDisk "data" [.style, .tone, .outline, .tone]
      = .error brokenTonesFault := by
  have hstyle := load_style_styledTree brokenTones
  have hblacklist : Kind.blacklist.load (styledTree brokenTones).toDisk "data" = .ok [] :=
    load_other_styledTree brokenTones (by decide) (by decide)
  constructor
  · obtain ⟨hiff, hok, -⟩ := catalog_loads_all_or_nothing (styledTree brokenTones).toDisk "data"
      [.blacklist, .style, .blacklist]
    obtain ⟨c, hc⟩ := hiff.2 (by simp [hstyle, hblacklist])
    obtain ⟨hin, hout, hsame, -⟩ := hok c hc
    refine ⟨c, hc, hin .style (by decide), hout .tone (by decide), hsame _ fun k => ?_⟩
    cases k <;> decide
  · obtain ⟨-, -, herror⟩ := catalog_loads_all_or_nothing (styledTree brokenTones).toDisk "data"
      [.style, .tone]
    have hfirst : Catalog.FirstFailing (styledTree brokenTones).toDisk "data" [.style, .tone]
        [.style] .tone brokenTonesFault :=
      ⟨⟨[], rfl⟩, List.forall_mem_singleton.2 ⟨_, hstyle⟩, load_brokenTones⟩
    obtain ⟨hpath, hfront⟩ := (herror brokenTonesFault).2 _ _ hfirst
    exact ⟨hpath, hfront _ [.outline, .tone] fun _ _ => rfl⟩

end Stylebook
