/-
  Stylebook.Proofs.Disk.Change

  What a change of one file does to a tree, and what it leaves alone. Where a file or
  nothing stands, no path leads any further. So a change at that location, to another file
  or to nothing (`Tree.FileChanged`), leaves all directories where they are
  (`Tree.FileChanged.isDirectory_eq`) and every path that leads somewhere leads there still.

  The data files of one directory stand side by side, under different names
  (`Tree.exists_parent_of_resolve`), so a change of one of them is not seen by reading
  another (`Tree.FileChanged.read_path_eq`). Taking a file away is such a change, after which
  its path is missing (`Tree.read_unlink_of_isFile`).
-/

import Stylebook.Proofs.Disk.Tree
import Stylebook.Proofs.Loading
import Stylebook.Settings

namespace Stylebook

namespace Tree

variable {t t' : Tree} {x y start last : Location} {names front rest : List String}
  {name path directory : String} {j k : Kind}

/-! ## Steps -/

/-- Names are looked up in directories only. -/
theorem node?_of_enter (h : t.enter x name = .ok y) : t.node? x = some .directory := by
  rw [enter] at h
  split at h
  · cases h
  · cases h
  · next hnode => exact hnode

theorem leads_append_iff :
    t.Leads start (front ++ rest) last ↔
      ∃ middle, t.Leads start front middle ∧ t.Leads middle rest last := by
  induction front generalizing start with
  | nil =>
    constructor
    · intro h
      exact ⟨start, .stay start, h⟩
    · rintro ⟨middle, ⟨⟩, h⟩
      exact h
  | cons name front ih =>
    constructor
    · rintro (_ | ⟨henter, h⟩)
      obtain ⟨middle, hfront, hrest⟩ := ih.1 h
      exact ⟨middle, .step henter hfront, hrest⟩
    · rintro ⟨middle, _ | ⟨henter, hfront⟩, hrest⟩
      exact .step henter (ih.2 ⟨middle, hfront, hrest⟩)

/-- A path leads to a location if it can be looked up and its names lead there. -/
theorem resolve_eq_ok_iff (hne : path ≠ "") :
    t.resolve path = .ok x ↔ Lookable path ∧ t.Leads (t.startOf path) (namesOf path) x := by
  by_cases hlookable : Lookable path
  · rw [resolve_of_lookable hne hlookable, foldlM_enter_eq_ok_iff]
    exact (and_iff_right hlookable).symm
  · obtain ⟨fault, hfault⟩ := exists_resolve_eq_fault hlookable
    rw [hfault t]
    simp [hlookable]

theorem ne_empty_of_resolve (h : t.resolve path = .ok x) : path ≠ "" := by
  rintro rfl
  cases h

theorem isDirectory_iff :
    t.isDirectory path = true ↔ ∃ x, t.resolve path = .ok x ∧ t.node? x = some .directory := by
  rw [isDirectory]
  cases t.resolve path with
  | error deadEnd => simp
  | ok x =>
    simp only [Except.ok.injEq, exists_eq_left']
    rcases t.node? x with _ | _ | _
    · simp
    · simp
    · simp

/-! ## A change of one file -/

/-- A tree differs from another in one file at most: at a location stands a file or nothing
    in both of them, and elsewhere they are the same. -/
structure FileChanged (t t' : Tree) (x : Location) : Prop where
  here : t'.here = t.here
  elsewhere : ∀ y, y ≠ x → t'.node? y = t.node? y
  before : t.node? x ≠ some .directory
  after : t'.node? x ≠ some .directory

namespace FileChanged

theorem symm (h : t.FileChanged t' x) : t'.FileChanged t x where
  here := h.here.symm
  elsewhere y hy := (h.elsewhere y hy).symm
  before := h.after
  after := h.before

/-- What is a directory stays one. -/
theorem node?_eq_directory (h : t.FileChanged t' x) (hy : t.node? y = some .directory) :
    t'.node? y = some .directory := by
  have hne : y ≠ x := by
    rintro rfl
    exact h.before hy
  rw [h.elsewhere y hne]
  exact hy

theorem enter_eq_ok (h : t.FileChanged t' x) (henter : t.enter start name = .ok last) :
    t'.enter start name = .ok last := by
  have hnode := node?_of_enter henter
  rw [enter, hnode] at henter
  rw [enter, h.node?_eq_directory hnode]
  exact henter

/-- Names lead where they led, since they are looked up in directories only. -/
theorem leads (h : t.FileChanged t' x) (hleads : t.Leads start names last) :
    t'.Leads start names last := by
  induction hleads with
  | stay location => exact .stay location
  -- Each step starts in a directory, and this is one in the other tree as well.
  | step henter _ ih => exact .step (h.enter_eq_ok henter) ih

theorem resolve_eq_ok (h : t.FileChanged t' x) (hpath : t.resolve path = .ok y) :
    t'.resolve path = .ok y := by
  have hne := ne_empty_of_resolve hpath
  obtain ⟨hlookable, hleads⟩ := (resolve_eq_ok_iff hne).1 hpath
  have hstart : t'.startOf path = t.startOf path := by rw [startOf, startOf, h.here]
  refine (resolve_eq_ok_iff hne).2 ⟨hlookable, ?_⟩
  rw [hstart]
  exact h.leads hleads

/-- The same paths lead to directories. -/
theorem isDirectory_eq (h : t.FileChanged t' x) (path : String) :
    t'.isDirectory path = t.isDirectory path := by
  -- The relation is symmetric, so one direction is enough.
  have hmono {t t' : Tree} (h : t.FileChanged t' x) (hpath : t.isDirectory path = true) :
      t'.isDirectory path = true := by
    obtain ⟨y, hresolve, hnode⟩ := isDirectory_iff.1 hpath
    exact isDirectory_iff.2 ⟨y, h.resolve_eq_ok hresolve, h.node?_eq_directory hnode⟩
  exact Bool.eq_iff_iff.2 ⟨hmono h.symm, hmono h⟩

end FileChanged

/-! ## The files of one directory -/

/-- The path of a file starts with its directory, whatever the file is called. -/
theorem exists_joinPath_eq (directory : String) :
    ∃ opening : String, (opening = "" ∨ ∃ before, opening.toList = before ++ ['/']) ∧
      ∀ file, joinPath directory file = opening ++ file := by
  by_cases hempty : directory.toList = []
  · refine ⟨"", .inl rfl, fun file => ?_⟩
    rw [joinPath, if_pos hempty]
    simp
  · by_cases hslash : directory.toList.getLast? = some '/'
    · obtain ⟨before, hbefore⟩ := List.getLast?_eq_some_iff.1 hslash
      refine ⟨directory, .inr ⟨before, hbefore⟩, fun file => ?_⟩
      rw [joinPath, if_neg hempty, if_pos hslash]
    · refine ⟨directory ++ "/", .inr ⟨directory.toList, by simp⟩, fun file => ?_⟩
      rw [joinPath, if_neg hempty, if_neg hslash]

theorem namesOf_append_of_slash {opening file : String} {before : List Char}
    (hopening : opening.toList = before ++ ['/']) (hfile : '/' ∉ file.toList) :
    namesOf (opening ++ file) = (before.splitOn '/').map String.ofList ++ [file] := by
  rw [namesOf, String.toList_append, hopening, List.append_assoc, List.singleton_append,
    List.splitOn_append_cons_self, List.splitOn_eq_singleton hfile, List.map_append,
    List.map_singleton, String.ofList_toList]

/-- The names of the data files are plain, and they are distinct. -/
theorem fileName_plain (k : Kind) :
    '/' ∉ k.fileName.toList ∧ k.fileName ≠ "" ∧ k.fileName ≠ "." ∧ k.fileName ≠ ".." := by
  cases k <;> decide

theorem fileName_injective (h : j.fileName = k.fileName) : j = k := by
  revert h
  cases j <;> cases k <;> decide

/-- The paths of the data files in a directory differ in their last names only. -/
theorem exists_namesOf_path (t : Tree) (directory : String) :
    ∃ names start, ∀ k : Kind, namesOf (k.path directory) = names ++ [k.fileName] ∧
      t.startOf (k.path directory) = start := by
  obtain ⟨opening, hopening, hjoin⟩ := exists_joinPath_eq directory
  have hpath (k : Kind) : k.path directory = opening ++ k.fileName := hjoin k.fileName
  simp only [hpath]
  rcases hopening with rfl | ⟨before, hbefore⟩
  · -- The files are looked up where the tree stands.
    refine ⟨[], t.here, fun k => ⟨?_, ?_⟩⟩
    · rw [String.empty_append, namesOf, List.splitOn_eq_singleton (fileName_plain k).1,
        List.map_singleton, String.ofList_toList]
      rfl
    · cases k <;> rfl
  · refine ⟨(before.splitOn '/').map String.ofList, t.startOf opening, fun k => ⟨?_, ?_⟩⟩
    · exact namesOf_append_of_slash hbefore (fileName_plain k).1
    · have hhead : (opening ++ k.fileName).toList.head? = opening.toList.head? := by
        rw [String.toList_append, hbefore]
        cases before <;> rfl
      rw [startOf, startOf, hhead]

/-- The data files of a directory stand side by side: what the path of one of them leads to has
    a parent, in which the paths of all of them lead to their names. -/
theorem exists_parent_of_resolve (h : t.resolve (k.path directory) = .ok x) :
    ∃ parent, ∀ j : Kind, Lookable (j.path directory) →
      t.resolve (j.path directory) = .ok (j.fileName :: parent) := by
  obtain ⟨names, start, hnames⟩ := t.exists_namesOf_path directory
  obtain ⟨-, hleads⟩ := (resolve_eq_ok_iff (ne_empty_of_resolve h)).1 h
  -- The way to the file goes through its directory, and so do those to the others.
  rw [(hnames k).1, (hnames k).2, leads_append_iff] at hleads
  obtain ⟨parent, hparent, hlast⟩ := hleads
  have hnode : t.node? parent = some .directory := by
    cases hlast with
    | step henter => exact node?_of_enter henter
  refine ⟨parent, fun j hj => ?_⟩
  rw [resolve_eq_ok_iff (j.path_ne_empty directory), (hnames j).1, (hnames j).2, leads_append_iff]
  have henter : t.enter parent j.fileName = .ok (j.fileName :: parent) := by
    obtain ⟨-, hempty, hdot, hdots⟩ := fileName_plain j
    have hshort : ¬ longestName < j.fileName.utf8ByteSize := by cases j <;> decide
    rw [enter, hnode]
    simp only [hempty, hdot, hdots, or_self, if_false, hshort]
  exact ⟨hj, parent, hparent, .step henter (.stay _)⟩

/-- A change of one data file is not seen by reading another one of the directory. -/
theorem FileChanged.read_path_eq (h : t.FileChanged t' x)
    (hx : t.resolve (k.path directory) = .ok x) (hne : j ≠ k) :
    t'.read (j.path directory) = t.read (j.path directory) := by
  by_cases hj : Lookable (j.path directory)
  · -- Both files stand in one directory under different names.
    obtain ⟨parent, hparent⟩ := exists_parent_of_resolve hx
    have hk := hparent k ((resolve_eq_ok_iff (k.path_ne_empty directory)).1 hx).1
    have hlocation : j.fileName :: parent ≠ x := by
      rw [hx] at hk
      cases hk
      intro heq
      exact hne (fileName_injective (List.cons.inj heq).1)
    have hread := hparent j hj
    rw [read, read, h.resolve_eq_ok hread, hread]
    simp only [h.elsewhere _ hlocation]
  · -- A path that cannot be looked up is the same fault in both trees.
    obtain ⟨fault, hfault⟩ := exists_resolve_eq_fault hj
    rw [read, read, hfault, hfault]

/-! ## Taking a file away -/

/-- A path leads to a file. -/
def IsFile (t : Tree) (path : String) : Prop :=
  ∃ x bytes, t.resolve path = .ok x ∧ t.node? x = some (.file bytes)

/-- A tree without the file that a path leads to. Directories are not taken away. -/
def unlink (t : Tree) (path : String) : Tree :=
  match t.resolve path with
  | .error _ => t
  | .ok location =>
    match t.node? location with
    | some (.file _) => { t with nodes := t.nodes.filter fun node => node.1 != location }
    | _ => t

theorem unlink_of_not_isFile (h : ¬ t.IsFile path) : t.unlink path = t := by
  rw [unlink]
  split
  · rfl
  · next location hlocation =>
    split
    · next bytes hbytes => exact absurd ⟨location, bytes, hlocation, hbytes⟩ h
    · rfl

/-- Leaving out the entries under a key does not change what stands under another key. -/
theorem lookup_filter_of_ne {entries : List (Location × Node)} (hne : y ≠ x) :
    (entries.filter fun entry => entry.1 != x).lookup y = entries.lookup y := by
  induction entries with
  | nil => rfl
  | cons entry entries ih =>
    obtain ⟨z, node⟩ := entry
    by_cases hz : z = x
    · have hskip : (y == z) = false := beq_false_of_ne (hz ▸ hne)
      rw [List.filter_cons_of_neg (by simp [hz]), List.lookup_cons, hskip]
      exact ih
    · rw [List.filter_cons_of_pos (by simp [hz]), List.lookup_cons, List.lookup_cons, ih]

theorem lookup_filter_self {entries : List (Location × Node)} :
    (entries.filter fun entry => entry.1 != x).lookup x = none := by
  refine List.lookup_eq_none_iff.2 fun entry hentry => ?_
  have hne : entry.1 ≠ x := by simpa using (List.mem_filter.1 hentry).2
  exact bne_iff_ne.2 hne.symm

/-- Taking a file away changes that file, and leaves nothing in its place. -/
theorem exists_fileChanged_unlink (h : t.IsFile path) :
    ∃ x, t.resolve path = .ok x ∧ t.FileChanged (t.unlink path) x ∧
      (t.unlink path).node? x = none := by
  obtain ⟨x, bytes, hx, hbytes⟩ := h
  have hunlink : t.unlink path
      = { t with nodes := t.nodes.filter fun node => node.1 != x } := by
    rw [unlink, hx]
    simp only [hbytes]
  cases x with
  | nil => cases hbytes
  | cons name parent =>
    have hgone : (t.unlink path).node? (name :: parent) = none := by
      rw [hunlink]
      exact lookup_filter_self
    refine ⟨name :: parent, hx, ⟨?_, ?_, ?_, ?_⟩, hgone⟩
    · rw [hunlink]
    · intro y hy
      rw [hunlink]
      cases y with
      | nil => rfl
      | cons => exact lookup_filter_of_ne hy
    · rw [hbytes]
      nofun
    · rw [hgone]
      nofun

/-- A file that was taken away is missing. -/
theorem read_unlink_of_isFile (h : t.IsFile path) : (t.unlink path).read path = .missing := by
  obtain ⟨x, hx, hchanged, hgone⟩ := exists_fileChanged_unlink h
  rw [read, hchanged.resolve_eq_ok hx]
  simp only [hgone]

/-- What is read as a text is a file. -/
theorem isFile_of_read_eq_text {content : String} (h : t.read path = .text content) :
    t.IsFile path := by
  rw [read] at h
  split at h
  · cases h
  · cases h
  · next x hx =>
    split at h
    · cases h
    · cases h
    · next bytes hbytes => exact ⟨x, bytes, hx, hbytes⟩

/-- Taking a data file away is not seen by reading another one of the directory. -/
theorem read_unlink_of_ne (t : Tree) (hne : j ≠ k) :
    (t.unlink (k.path directory)).read (j.path directory) = t.read (j.path directory) := by
  by_cases hfile : t.IsFile (k.path directory)
  · obtain ⟨x, hx, hchanged, -⟩ := exists_fileChanged_unlink hfile
    exact hchanged.read_path_eq hx hne
  · rw [unlink_of_not_isFile hfile]

/-- Without its file a collection is empty, if the file could be taken away or was not in the
    way before. -/
theorem load_unlink_self
    (h : t.IsFile (k.path directory) ∨ ∃ es, k.load t.toDisk directory = .ok es) :
    k.load (t.unlink (k.path directory)).toDisk directory = .ok [] := by
  refine Kind.load_eq_ok_iff.2 (.inl ⟨?_, rfl⟩)
  show (t.unlink (k.path directory)).read (k.path directory) = .missing
  by_cases hfile : t.IsFile (k.path directory)
  · exact read_unlink_of_isFile hfile
  · -- Nothing is taken away. What loads without a file is what is missing.
    rw [unlink_of_not_isFile hfile]
    obtain ⟨es, hes⟩ := h.resolve_left hfile
    rcases Kind.load_eq_ok_iff.1 hes with ⟨hmissing, -⟩ | ⟨content, hcontent, -⟩
    · exact hmissing
    · exact absurd (isFile_of_read_eq_text hcontent) hfile

theorem load_unlink_of_ne (t : Tree) (hne : j ≠ k) :
    j.load (t.unlink (k.path directory)).toDisk directory = j.load t.toDisk directory := by
  show j.ofOutcome _ ((t.unlink (k.path directory)).read (j.path directory)) = _
  rw [t.read_unlink_of_ne hne]
  rfl

end Tree

/-! ## Surroundings -/

/-- The same surroundings with another file system. -/
def Surroundings.withTree (s : Surroundings) (t : Tree) : Surroundings :=
  { s with disk := t.toDisk }

/-- A change of one file does not change which data directory is used. -/
theorem Settings.directory_of_fileChanged {t t' : Tree} {x : Location} (s : Surroundings)
    (given : Option String) (h : t.FileChanged t' x) :
    Settings.directory (s.withTree t') given = Settings.directory (s.withTree t) given := by
  have hdirectories : t'.isDirectory = t.isDirectory := funext h.isDirectory_eq
  have hdiscover : discover (s.withTree t') = discover (s.withTree t) := by
    show ((usualPlaces s).find? t'.isDirectory).getD usualPlace
      = ((usualPlaces s).find? t.isDirectory).getD usualPlace
    rw [hdirectories]
  cases given with
  | some value => rfl
  | none =>
    -- The tree matters only where the usual places are tried.
    rw [directory, hdiscover]
    rfl

theorem Settings.directory_unlink (s : Surroundings) (t : Tree) (path : String)
    (given : Option String) :
    Settings.directory (s.withTree (t.unlink path)) given
      = Settings.directory (s.withTree t) given := by
  by_cases hfile : t.IsFile path
  · obtain ⟨x, -, hchanged, -⟩ := Tree.exists_fileChanged_unlink hfile
    exact Settings.directory_of_fileChanged s given hchanged
  · rw [Tree.unlink_of_not_isFile hfile]

end Stylebook
