/-
  Stylebook.Proofs.Disk.Tree

  What reading a file in a tree comes to, said by where its path leads. Names lead from
  one location to another, each entered from a directory (`Tree.Leads`). A file is missing
  if its path, or a front of its path, leads to a location where nothing stands
  (`Tree.read_eq_missing_iff`). It is read as a text if its path leads to a file with the
  bytes of that text (`Tree.read_eq_text_iff`). All that remains is a fault.
-/

import Stylebook.Disk.Tree
import Stylebook.Proofs.Disk

namespace Stylebook.Tree

/-! ## Following names -/

/-- Names lead from a location to another one. -/
inductive Leads (t : Tree) : Location → List String → Location → Prop where
  | stay (location : Location) : Leads t location [] location
  | step {location next last : Location} {name : String} {names : List String} :
      t.enter location name = .ok next → Leads t next names last →
      Leads t location (name :: names) last

variable {t : Tree} {path content name : String} {names : List String}
  {location start last : Location}

/-- A step from a location fails as missing exactly if nothing stands there. -/
theorem enter_eq_missing_iff :
    t.enter location name = .error .missing ↔ t.node? location = none := by
  rw [enter]
  cases t.node? location with
  | none => simp
  | some node =>
    cases node with
    | file bytes => simp
    | directory =>
      simp only [reduceCtorEq, iff_false]
      -- A directory is there, whatever name is looked for in it.
      split
      · nofun
      · split
        · nofun
        · split <;> nofun

theorem foldlM_enter_eq_ok_iff :
    names.foldlM t.enter start = .ok last ↔ t.Leads start names last := by
  induction names generalizing start with
  | nil =>
    rw [List.foldlM_nil]
    constructor
    · rintro ⟨⟩
      exact .stay _
    · rintro ⟨⟩
      rfl
  | cons name names ih =>
    rw [List.foldlM_cons]
    constructor
    · intro h
      rcases henter : t.enter start name with fault | next
      · rw [henter] at h
        cases h
      · rw [henter] at h
        exact .step henter (ih.1 h)
    · rintro (_ | ⟨henter, hrest⟩)
      rw [henter]
      exact ih.2 hrest

/-- Following names fails as missing exactly if a front of them, before the last one, leads
    to a location where nothing stands. -/
theorem foldlM_enter_eq_missing_iff :
    names.foldlM t.enter start = .error .missing ↔
      ∃ front name rest location, names = front ++ name :: rest ∧
        t.Leads start front location ∧ t.node? location = none := by
  induction names generalizing start with
  | nil =>
    rw [List.foldlM_nil]
    constructor
    · nofun
    · rintro ⟨front, name, rest, location, h, -⟩
      exact absurd h.symm (List.append_ne_nil_of_right_ne_nil _ (List.cons_ne_nil _ _))
  | cons name names ih =>
    rw [List.foldlM_cons]
    constructor
    · intro h
      rcases henter : t.enter start name with fault | next
      · rw [henter] at h
        cases h
        exact ⟨[], name, names, start, rfl, .stay _, enter_eq_missing_iff.1 henter⟩
      · rw [henter] at h
        obtain ⟨front, name', rest, location, rfl, hleads, hnone⟩ := ih.1 h
        exact ⟨name :: front, name', rest, location, rfl, .step henter hleads, hnone⟩
    · rintro ⟨front, name', rest, location, heq, hleads, hnone⟩
      cases hleads with
      | stay =>
        obtain ⟨rfl, rfl⟩ := List.cons.inj heq
        rw [enter_eq_missing_iff.2 hnone]
        rfl
      | step henter hleads =>
        obtain ⟨rfl, rfl⟩ := List.cons.inj heq
        rw [henter]
        exact ih.2 ⟨_, name', rest, location, rfl, hleads, hnone⟩

/-! ## Paths -/

/-- A path that can be looked up: it holds no U+0000 and is not too long. -/
def Lookable (path : String) : Prop :=
  '\x00' ∉ path.toList ∧ path.utf8ByteSize < tooLongPath

/-- Where a path starts: at the root, or in the current directory. -/
def startOf (t : Tree) (path : String) : Location :=
  if path.toList.head? = some '/' then [] else t.here

/-- The file that a path names does not exist, or a directory on its way does not. -/
def Absent (t : Tree) (path : String) : Prop :=
  Lookable path ∧ ∃ front rest location, namesOf path = front ++ rest ∧
    t.Leads (t.startOf path) front location ∧ t.node? location = none

/-- A path leads to a file with the bytes of a text. -/
def HoldsText (t : Tree) (path content : String) : Prop :=
  Lookable path ∧ ∃ location, t.Leads (t.startOf path) (namesOf path) location ∧
    t.node? location = some (.file content.toUTF8)

theorem resolve_of_lookable (hne : path ≠ "") (h : Lookable path) :
    t.resolve path = (namesOf path).foldlM t.enter (t.startOf path) := by
  rw [resolve, if_neg h.1, if_neg (Nat.not_le.2 h.2), if_neg hne, startOf]

/-- A path that cannot be looked up is a fault, and the same one in every tree. -/
theorem exists_resolve_eq_fault (h : ¬ Lookable path) :
    ∃ fault, ∀ t : Tree, t.resolve path = .error (.fault fault) := by
  by_cases hnul : '\x00' ∈ path.toList
  · refine ⟨.nulInName, fun t => ?_⟩
    rw [resolve, if_pos hnul]
  · have hlong : tooLongPath ≤ path.utf8ByteSize := Nat.not_lt.1 fun hlt => h ⟨hnul, hlt⟩
    refine ⟨.nameTooLong, fun t => ?_⟩
    rw [resolve, if_neg hnul, if_pos hlong]

theorem exists_read_eq_failed (h : ¬ Lookable path) : ∃ fault, t.read path = .failed fault := by
  obtain ⟨fault, hfault⟩ := exists_resolve_eq_fault h
  refine ⟨fault, ?_⟩
  rw [read, hfault t]

theorem lookable_of_read (h : ∀ fault, t.read path ≠ .failed fault) : Lookable path := by
  refine Classical.byContradiction fun hnot => ?_
  obtain ⟨fault, hfault⟩ := exists_read_eq_failed (t := t) hnot
  exact h fault hfault

theorem read_eq_missing_iff (hne : path ≠ "") : t.read path = .missing ↔ t.Absent path := by
  constructor
  · intro hread
    have hlookable : Lookable path := lookable_of_read fun fault hfault => by
      rw [hread] at hfault
      cases hfault
    refine ⟨hlookable, ?_⟩
    rw [read, resolve_of_lookable hne hlookable] at hread
    split at hread
    · next hmissing =>
      obtain ⟨front, name, rest, location, hnames, hleads, hnone⟩ :=
        foldlM_enter_eq_missing_iff.1 hmissing
      exact ⟨front, name :: rest, location, hnames, hleads, hnone⟩
    · cases hread
    · next location hlocation =>
      split at hread
      · next hnone =>
        exact ⟨namesOf path, [], location, (List.append_nil _).symm,
          foldlM_enter_eq_ok_iff.1 hlocation, hnone⟩
      · cases hread
      · exact absurd hread (ReadOutcome.ofBytes_ne_missing _)
  · rintro ⟨hlookable, front, rest, location, hnames, hleads, hnone⟩
    rw [read, resolve_of_lookable hne hlookable]
    cases rest with
    | nil =>
      -- The path itself leads there.
      rw [List.append_nil] at hnames
      rw [hnames, foldlM_enter_eq_ok_iff.2 hleads]
      simp only [hnone]
    | cons name rest =>
      rw [foldlM_enter_eq_missing_iff.2 ⟨front, name, rest, location, hnames, hleads, hnone⟩]

theorem read_eq_text_iff (hne : path ≠ "") :
    t.read path = .text content ↔ t.HoldsText path content := by
  constructor
  · intro hread
    have hlookable : Lookable path := lookable_of_read fun fault hfault => by
      rw [hread] at hfault
      cases hfault
    refine ⟨hlookable, ?_⟩
    rw [read, resolve_of_lookable hne hlookable] at hread
    split at hread
    · cases hread
    · cases hread
    · next location hlocation =>
      refine ⟨location, foldlM_enter_eq_ok_iff.1 hlocation, ?_⟩
      split at hread
      · cases hread
      · cases hread
      · next hfile => rw [hfile, ReadOutcome.ofBytes_eq_text_iff.1 hread]
  · rintro ⟨hlookable, location, hleads, hfile⟩
    rw [read, resolve_of_lookable hne hlookable, foldlM_enter_eq_ok_iff.2 hleads]
    simp only [hfile, ReadOutcome.ofBytes_toUTF8]

/-- What is neither missing nor a text is a fault. -/
theorem exists_read_eq_failed_iff (hne : path ≠ "") :
    (∃ fault, t.read path = .failed fault) ↔
      ¬ t.Absent path ∧ ∀ content, ¬ t.HoldsText path content := by
  simp only [← read_eq_missing_iff hne, ← read_eq_text_iff hne]
  cases t.read path <;> simp

end Stylebook.Tree
