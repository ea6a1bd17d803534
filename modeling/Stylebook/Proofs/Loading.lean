/-
  Stylebook.Proofs.Loading

  What loading comes to. The entries that were read from a value are written as that
  value again, whether they stand in a list or under keys
  (`Kind.entriesJson_of_entriesOf`). So an invariant holds of every collection that was
  ever loaded, from any file and also from a missing one: what is written of it repeats
  no key, leaves room for one more level of nesting, and holds its entries
  (`Kind.Loaded`). A catalog is loaded if each of its collections is
  (`Catalog.load_eq_ok_iff`), so its collections have the invariant too.
-/

import Mathlib.Data.List.Forall2
import Stylebook.Loading
import Stylebook.Proofs.RecordRoundTrip

namespace Stylebook

open Json (Value Members Mismatch depthLimit)

/-- A traversal succeeds if it succeeds at each element. -/
theorem mapM_eq_ok_iff {ε α β : Type} {f : α → Except ε β} {as : List α} {bs : List β} :
    as.mapM f = .ok bs ↔ List.Forall₂ (fun a b => f a = .ok b) as bs := by
  induction as generalizing bs with
  | nil =>
    rw [List.mapM_nil, List.forall₂_nil_left_iff]
    simp [pure, Except.pure, eq_comm]
  | cons a as ih =>
    rw [List.mapM_cons, List.forall₂_cons_left_iff]
    -- The first failure is that of the traversal.
    rcases hf : f a with x | b
    · simp [bind, Except.bind]
    · rcases hrest : as.mapM f with x | bs'
      · simp [bind, Except.bind, ← ih, hrest]
      · simp [bind, Except.bind, pure, Except.pure, ← ih, hrest, eq_comm]

/-- What stands in a list is related to something in the list that it is related to. -/
theorem exists_mem_of_forall₂ {α β : Type} {R : α → β → Prop} {as : List α} {bs : List β}
    (h : List.Forall₂ R as bs) : ∀ b ∈ bs, ∃ a ∈ as, R a b := by
  induction h with
  | nil => nofun
  | cons hab _ ih =>
    intro b hb
    rcases List.mem_cons.1 hb with rfl | hb
    · exact ⟨_, List.mem_cons_self, hab⟩
    · obtain ⟨a, ha, hr⟩ := ih b hb
      exact ⟨a, List.mem_cons_of_mem _ ha, hr⟩

/-! ## Entries and the value they were read from -/

namespace Kind

variable {k : Kind}

theorem mem_all (k : Kind) : k ∈ all := by
  cases k <;> decide

/-- Each collection stands in the fixed order once, after some others. -/
theorem exists_all_eq (k : Kind) : ∃ before after, all = before ++ k :: after ∧ k ∉ before := by
  cases k with
  | style => exact ⟨[], _, rfl, by decide⟩
  | tone => exact ⟨[.style], _, rfl, by decide⟩
  | outline => exact ⟨[.style, .tone], _, rfl, by decide⟩
  | industry => exact ⟨[.style, .tone, .outline], _, rfl, by decide⟩
  | blacklist => exact ⟨[.style, .tone, .outline, .industry], _, rfl, by decide⟩

theorem entry_of_ofValue {key : k.Key} {v : Value} {e : Entry k}
    (h : (Record.ofValue k v).map (fun r => (⟨key, r⟩ : Entry k)) = .ok e) :
    e.key = key ∧ v = e.record.toJson := by
  rcases hr : Record.ofValue k v with m | r
  · rw [hr] at h
    cases h
  · rw [hr] at h
    cases h
    exact ⟨rfl, (Record.ofValue_eq_ok_iff.1 hr).1⟩

theorem listJson_of_listEntries {key : k.Key} {body : Value} {es : List (Entry k)}
    (h : listEntries k key body = .ok es) : listJson es = body := by
  cases body with
  | array items =>
    have hitems := mapM_eq_ok_iff.1 h
    have heq : List.Forall₂ (fun v e => v = e.record.toJson) items es :=
      hitems.imp fun v e he => (entry_of_ofValue he).2
    rw [listJson, Value.array.injEq]
    exact (List.forall₂_eq_eq_eq ▸ List.forall₂_map_right_iff.2 heq).symm
  | _ => cases h

theorem keyedJson_of_keyedEntries {body : Value} {es : List (Entry .blacklist)}
    (h : keyedEntries body = .ok es) : keyedJson es = body := by
  cases body with
  | object members =>
    have hmembers := mapM_eq_ok_iff.1 h
    have heq : List.Forall₂ (fun m e => m = (e.key, e.record.toJson)) members es :=
      hmembers.imp fun m e he => by
        obtain ⟨hkey, hvalue⟩ := entry_of_ofValue he
        exact Prod.ext hkey.symm hvalue
    rw [keyedJson, Value.object.injEq]
    exact (List.forall₂_eq_eq_eq ▸ List.forall₂_map_right_iff.2 heq).symm
  | _ => cases h

/-- Entries are written as the value they were read from. -/
theorem entriesJson_of_entriesOf {body : Value} {es : List (Entry k)}
    (h : k.entriesOf body = .ok es) : k.entriesJson es = body := by
  cases k with
  | style => exact listJson_of_listEntries h
  | tone => exact listJson_of_listEntries h
  | outline => exact listJson_of_listEntries h
  | industry => exact listJson_of_listEntries h
  | blacklist => exact keyedJson_of_keyedEntries h

/-- No collection is written as null. -/
theorem entriesJson_ne_null (k : Kind) (es : List (Entry k)) : k.entriesJson es ≠ .null := by
  cases k <;> nofun

/-! ## What a file comes to -/

/-- A document has a body if it is an object with something other than null under the
    collection's key. -/
theorem bodyOf?_eq_some_iff {document body : Value} :
    k.bodyOf? document = .ok (some body) ↔
      ∃ members, document = .object members ∧ members.lookup k.dataKey = some body ∧
        body ≠ .null := by
  cases document with
  | object members =>
    rw [bodyOf?]
    split
    · next hnull => simp [hnull, eq_comm]
    · -- What is found is the body, and it is not null.
      next hnull =>
      simp only [Except.ok.injEq, Value.object.injEq, exists_eq_left']
      refine ⟨fun h => ⟨h, ?_⟩, fun h => h.1⟩
      rintro rfl
      exact hnull h
  | array items => cases items <;> simp [bodyOf?]
  | _ => simp [bodyOf?]

theorem entriesIn_eq_ok_iff {document : Value} {es : List (Entry k)} :
    k.entriesIn document = .ok es ↔
      (k.bodyOf? document = .ok none ∧ es = []) ∨
        ∃ body, k.bodyOf? document = .ok (some body) ∧ k.entriesOf body = .ok es := by
  rw [entriesIn]
  rcases k.bodyOf? document with m | _ | body
  · simp
  · simp [eq_comm]
  · simp

theorem parse_eq_ok_iff {text : String} {es : List (Entry k)} :
    k.parse text = .ok es ↔
      ∃ document, Json.parse text = .ok document ∧ k.entriesIn document = .ok es := by
  rw [parse]
  rcases Json.parse text with f | document
  · simp
  · simp only [Except.ok.injEq, exists_eq_left']
    rcases k.entriesIn document with m | es'
    · simp
    · simp

theorem path_ne_empty (k : Kind) (directory : String) : k.path directory ≠ "" := by
  have hname : k.fileName ≠ "" := by cases k <;> decide
  rw [path, joinPath]
  split
  · exact hname
  · split
    · simp [hname]
    · simp

/-- A collection is loaded if its file is missing, and then it is empty, or if it is in
    the text of the file. -/
theorem load_eq_ok_iff {disk : Disk} {directory : String} {es : List (Entry k)} :
    k.load disk directory = .ok es ↔
      (disk.read (k.path directory) = .missing ∧ es = []) ∨
        ∃ text, disk.read (k.path directory) = .text text ∧ k.parse text = .ok es := by
  rw [load]
  rcases disk.read (k.path directory) with _ | fault | text
  · simp [ofOutcome, eq_comm]
  · simp [ofOutcome]
  · simp only [ofOutcome, reduceCtorEq, false_and, ReadOutcome.text.injEq, exists_eq_left',
      false_or]
    rcases k.parse text with f | es'
    · simp
    · simp

/-- The fault of a collection that does not load names its file. -/
theorem path_of_load {disk : Disk} {directory : String} {fault : LoadFault}
    (h : k.load disk directory = .error fault) : fault.path = k.path directory := by
  rw [load] at h
  cases hread : disk.read (k.path directory) with
  | missing =>
    rw [hread] at h
    cases h
  | failed readFault =>
    rw [hread] at h
    cases h
    rfl
  | text content =>
    rw [hread, ofOutcome] at h
    rcases hparse : k.parse content with jsonFault | es
    · rw [hparse] at h
      cases h
      rfl
    · rw [hparse] at h
      cases h

/-! ## What holds of every loaded collection -/

/-- A collection that was loaded: what is written of it holds its entries, repeats no
    key, and may stand in one more object. -/
structure Loaded (k : Kind) (es : List (Entry k)) : Prop where
  entries : k.entriesOf (k.entriesJson es) = .ok es
  keysDistinct : (k.entriesJson es).KeysDistinct
  depth_lt : (k.entriesJson es).depth < depthLimit

theorem loaded_nil (k : Kind) : k.Loaded [] := by
  cases k with
  | blacklist => exact ⟨rfl, ⟨List.nodup_nil, trivial⟩, by decide⟩
  | _ => exact ⟨rfl, trivial, by decide⟩

/-- The entries in a document that may be read are loaded. -/
theorem loaded_of_entriesIn {document : Value} {es : List (Entry k)}
    (hkeys : document.KeysDistinct) (hdepth : document.depth ≤ depthLimit)
    (h : k.entriesIn document = .ok es) : k.Loaded es := by
  rcases entriesIn_eq_ok_iff.1 h with ⟨-, rfl⟩ | ⟨body, hbody, hentries⟩
  · exact loaded_nil k
  · obtain ⟨members, rfl, hlookup, -⟩ := bodyOf?_eq_some_iff.1 hbody
    obtain ⟨before, after, hmembers, -⟩ := List.lookup_eq_some_iff.1 hlookup
    have hmem : (k.dataKey, body) ∈ members := by
      rw [hmembers]
      exact List.mem_append_right before List.mem_cons_self
    have hjson := entriesJson_of_entriesOf hentries
    -- The body stands in the object of the document, one level below it.
    refine ⟨by rw [hjson, hentries], ?_, ?_⟩
    · rw [hjson]
      exact (Json.keysDistinct_object_iff.1 hkeys).2 _ hmem
    · rw [hjson]
      exact Nat.lt_succ_of_le (Json.depth_object_le_iff.1 hdepth _ hmem)

/-- What was loaded is loaded, whatever the file held. -/
theorem loaded_of_load {disk : Disk} {directory : String} {es : List (Entry k)}
    (h : k.load disk directory = .ok es) : k.Loaded es := by
  rcases load_eq_ok_iff.1 h with ⟨-, rfl⟩ | ⟨text, -, htext⟩
  · exact loaded_nil k
  · obtain ⟨document, hparse, hentries⟩ := parse_eq_ok_iff.1 htext
    obtain ⟨hkeys, hdepth⟩ := Json.keysDistinct_and_depth_le_of_parse hparse
    exact loaded_of_entriesIn hkeys hdepth hentries

end Kind

/-! ## Catalogs -/

namespace Catalog

theorem set_entries_self (c : Catalog) (k : Kind) (es : List (Entry k)) :
    (c.set k es).entries k = es := by
  rw [set]
  exact dif_pos rfl

theorem set_entries_of_ne {j k : Kind} (c : Catalog) (es : List (Entry k)) (h : k ≠ j) :
    (c.set k es).entries j = c.entries j := by
  rw [set]
  exact dif_neg h

/-- Loading on top of a catalog succeeds if each collection loads; the collections that
    are not asked for stay as they were. -/
theorem foldlM_load_eq_ok_iff {disk : Disk} {directory : String} {kinds : List Kind}
    {start c : Catalog} :
    kinds.foldlM (fun c k => (k.load disk directory).map (c.set k)) start = .ok c ↔
      ∀ k, (k ∈ kinds → k.load disk directory = .ok (c.entries k)) ∧
        (k ∉ kinds → c.entries k = start.entries k) := by
  induction kinds generalizing start with
  | nil =>
    rw [List.foldlM_nil]
    constructor
    · rintro ⟨⟩ k
      exact ⟨nofun, fun _ => rfl⟩
    · intro h
      have hentries : c.entries = start.entries := funext fun k => (h k).2 List.not_mem_nil
      cases c
      cases start
      exact congrArg Except.ok (congrArg Catalog.mk hentries.symm)
  | cons j kinds ih =>
    rw [List.foldlM_cons]
    rcases hj : j.load disk directory with fault | es
    · -- A collection that is asked for and does not load.
      constructor
      · rintro ⟨⟩
      · intro h
        have hload := (h j).1 List.mem_cons_self
        rw [hj] at hload
        cases hload
    · refine ih.trans (forall_congr' fun k => ?_)
      -- The collection that was just loaded may be asked for again, and is the same then.
      by_cases hk : k = j
      · subst hk
        rw [set_entries_self]
        by_cases hmem : k ∈ kinds
        · simp [hmem, hj]
        · simp [hmem, hj, eq_comm]
      · rw [set_entries_of_ne _ _ (Ne.symm hk)]
        simp [hk]

/-- A catalog is loaded if each collection that is asked for is, and the others are
    empty. -/
theorem load_eq_ok_iff {disk : Disk} {directory : String} {kinds : List Kind} {c : Catalog} :
    load disk directory kinds = .ok c ↔
      ∀ k, (k ∈ kinds → k.load disk directory = .ok (c.entries k)) ∧
        (k ∉ kinds → c.entries k = []) :=
  foldlM_load_eq_ok_iff

/-- Loading on top of a catalog fails if some collection does not load, with the fault of the
    first one in the list. -/
theorem foldlM_load_eq_error_iff {disk : Disk} {directory : String} {kinds : List Kind}
    {start : Catalog} {fault : LoadFault} :
    kinds.foldlM (fun c k => (k.load disk directory).map (c.set k)) start = .error fault ↔
      ∃ before k after, kinds = before ++ k :: after ∧
        (∀ j ∈ before, ∃ es, j.load disk directory = .ok es) ∧
        k.load disk directory = .error fault := by
  induction kinds generalizing start with
  | nil =>
    rw [List.foldlM_nil]
    constructor
    · nofun
    · rintro ⟨before, k, after, h, -⟩
      exact absurd h.symm (List.append_ne_nil_of_right_ne_nil _ (List.cons_ne_nil _ _))
  | cons j kinds ih =>
    rw [List.foldlM_cons]
    rcases hj : j.load disk directory with x | es
    · -- The collection at the head fails, so nothing stands before the one that fails first.
      constructor
      · rintro ⟨⟩
        exact ⟨[], j, kinds, rfl, nofun, hj⟩
      · rintro ⟨before, k, after, heq, hbefore, hk⟩
        cases before with
        | nil =>
          obtain ⟨rfl, rfl⟩ := List.cons.inj heq
          rw [hj] at hk
          cases hk
          rfl
        | cons i before =>
          obtain ⟨rfl, rfl⟩ := List.cons.inj heq
          obtain ⟨es, hes⟩ := hbefore j List.mem_cons_self
          rw [hj] at hes
          cases hes
    · refine ih.trans ?_
      constructor
      · rintro ⟨before, k, after, rfl, hbefore, hk⟩
        exact ⟨j :: before, k, after, rfl, List.forall_mem_cons.2 ⟨⟨es, hj⟩, hbefore⟩, hk⟩
      · rintro ⟨before, k, after, heq, hbefore, hk⟩
        cases before with
        | nil =>
          obtain ⟨rfl, rfl⟩ := List.cons.inj heq
          rw [hj] at hk
          cases hk
        | cons i before =>
          obtain ⟨rfl, rfl⟩ := List.cons.inj heq
          exact ⟨before, k, after, rfl, (List.forall_mem_cons.1 hbefore).2, hk⟩

/-- Loading a catalog fails with the fault of the first collection that does not load. -/
theorem load_eq_error_iff {disk : Disk} {directory : String} {kinds : List Kind}
    {fault : LoadFault} :
    load disk directory kinds = .error fault ↔
      ∃ before k after, kinds = before ++ k :: after ∧
        (∀ j ∈ before, ∃ es, j.load disk directory = .ok es) ∧
        k.load disk directory = .error fault :=
  foldlM_load_eq_error_iff

theorem exists_load_iff {disk : Disk} {directory : String} {kinds : List Kind} :
    (∃ c, load disk directory kinds = .ok c) ↔
      ∀ k ∈ kinds, ∃ es, k.load disk directory = .ok es := by
  constructor
  · rintro ⟨c, hload⟩ k hk
    exact ⟨c.entries k, (load_eq_ok_iff.1 hload k).1 hk⟩
  · intro hall
    rcases hload : load disk directory kinds with fault | c
    · -- The collection that fails is one of those that load.
      obtain ⟨before, k, after, rfl, -, hk⟩ := load_eq_error_iff.1 hload
      obtain ⟨es, hes⟩ := hall k (List.mem_append_right _ List.mem_cons_self)
      rw [hes] at hk
      cases hk
    · exact ⟨c, rfl⟩

/-- Disks from which each collection that is asked for loads alike give one catalog, or one
    fault. -/
theorem load_congr {disk disk' : Disk} {directory : String} {kinds : List Kind}
    (h : ∀ k ∈ kinds, k.load disk' directory = k.load disk directory) :
    load disk' directory kinds = load disk directory kinds := by
  rcases hload : load disk directory kinds with fault | c
  · obtain ⟨before, k, after, rfl, hbefore, hk⟩ := load_eq_error_iff.1 hload
    refine load_eq_error_iff.2 ⟨before, k, after, rfl, fun j hj => ?_, ?_⟩
    · rw [h j (List.mem_append_left _ hj)]
      exact hbefore j hj
    · rw [h k (List.mem_append_right _ List.mem_cons_self)]
      exact hk
  · refine load_eq_ok_iff.2 fun k => ?_
    obtain ⟨hin, hout⟩ := load_eq_ok_iff.1 hload k
    exact ⟨fun hk => (h k hk).trans (hin hk), hout⟩

/-- Every collection of a loaded catalog is loaded. -/
theorem loaded_of_load {disk : Disk} {directory : String} {kinds : List Kind} {c : Catalog}
    (h : load disk directory kinds = .ok c) (k : Kind) : k.Loaded (c.entries k) := by
  obtain ⟨hin, hout⟩ := load_eq_ok_iff.1 h k
  by_cases hk : k ∈ kinds
  · exact Kind.loaded_of_load (hin hk)
  · rw [hout hk]
    exact Kind.loaded_nil k

end Catalog

end Stylebook
