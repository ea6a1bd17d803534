/-
  Stylebook.Proofs.UnreadFields

  Fields that a search does not read cannot influence it. Two objects that agree on the
  searched keys are accepted alike, and their records answer the same needles. So two data
  files that differ in other fields only (`Kind.AlikeDocuments`) load alike, and a query
  finds its matches at the same places in both (`unread_fields_do_not_matter`). What is
  carried from the documents to the places is a relation row by row, then entry by entry.
-/

import Mathlib.Data.List.Forall2
import Stylebook.Proofs.DataFile
import Stylebook.Proofs.SearchExact

namespace Stylebook

open Json (Value Members)

/-! ## Places of the matches -/

section Places

variable {k : Kind}

/-- The elements that pass a test are those at the places where it is passed. -/
theorem filter_eq_filterMap_findIdxs {α : Type} (p : α → Bool) (as : List α) :
    as.filter p = (as.findIdxs p).filterMap fun i => as[i]? := by
  induction as with
  | nil => rfl
  | cons a as ih =>
    -- Behind the first element all places are one further on.
    have hrest : (as.findIdxs p 1).filterMap (fun i => (a :: as)[i]?) = as.filter p := by
      rw [List.findIdxs_start, List.filterMap_map, ih]
      simp only [Function.comp_def, List.getElem?_cons_succ]
    rw [List.findIdxs_cons, List.filter_cons]
    split
    · rw [List.filterMap_cons, Nat.zero_add, hrest]
      rfl
    · rw [Nat.zero_add, hrest]

/-- The places in a collection at which a query finds its matches. -/
def placesFound (entries : List (Entry k)) (query : String) : List Nat :=
  entries.findIdxs (Entry.holds (Text.lower query.toList))

theorem searchEntries_eq_places (entries : List (Entry k)) (query : String) :
    searchEntries entries query
      = (placesFound entries query).filterMap fun i => entries[i]?.map Entry.tagged := by
  rw [searchEntries, filter_eq_filterMap_findIdxs, List.map_filterMap, placesFound]

/-- Two entries that hold the same needles. -/
def Entry.SameAnswers (e e' : Entry k) : Prop :=
  ∀ needle, e.holds needle = e'.holds needle

/-- Collections whose entries hold the same needles, one by one, have their matches at the
    same places. -/
theorem placesFound_eq_of_sameAnswers {es es' : List (Entry k)}
    (h : List.Forall₂ Entry.SameAnswers es es') (query : String) :
    placesFound es query = placesFound es' query := by
  have hmap : es.map (Entry.holds (Text.lower query.toList))
      = es'.map (Entry.holds (Text.lower query.toList)) := by
    rw [← List.forall₂_eq_eq_eq, List.forall₂_map_left_iff, List.forall₂_map_right_iff]
    exact h.imp fun e e' hsame => hsame _
  have hplaces (es : List (Entry k)) : placesFound es query
      = (es.map (Entry.holds (Text.lower query.toList))).findIdxs id := by
    rw [List.findIdxs_map, Function.id_comp, placesFound]
  rw [hplaces, hplaces, hmap]

end Places

/-! ## Related lists and options -/

section Related

variable {α β : Type}

/-- What is related to the elements of a mapped list is the image of another list, if that
    is so for each element. -/
theorem exists_map_of_forall₂ {f : α → β} {R : β → β → Prop} {S : α → α → Prop}
    (h : ∀ a b, R (f a) b → ∃ a', b = f a' ∧ S a a') {as : List α} {bs : List β}
    (hbs : List.Forall₂ R (as.map f) bs) :
    ∃ as', bs = as'.map f ∧ List.Forall₂ S as as' := by
  induction as generalizing bs with
  | nil =>
    rw [List.map_nil, List.forall₂_nil_left_iff] at hbs
    exact ⟨[], hbs, .nil⟩
  | cons a as ih =>
    rw [List.map_cons, List.forall₂_cons_left_iff] at hbs
    obtain ⟨b, bs, hb, hrest, rfl⟩ := hbs
    obtain ⟨a', rfl, ha⟩ := h a b hb
    obtain ⟨as', rfl, has⟩ := ih hrest
    exact ⟨a' :: as', rfl, .cons ha has⟩

theorem rel_swap {R : α → β → Prop} {S : β → α → Prop} (hswap : ∀ a b, R a b → S b a)
    {a? : Option α} {b? : Option β} (h : Option.Rel R a? b?) : Option.Rel S b? a? := by
  cases h with
  | none => exact .none
  | some hab => exact .some (hswap _ _ hab)

theorem eq_none_of_rel_none {R : α → β → Prop} {b? : Option β} (h : Option.Rel R none b?) :
    b? = none := by
  cases h
  rfl

theorem exists_of_rel_some {R : α → β → Prop} {a : α} {b? : Option β}
    (h : Option.Rel R (some a) b?) : ∃ b, b? = some b ∧ R a b := by
  cases h with
  | some hab => exact ⟨_, rfl, hab⟩

end Related

namespace Kind

variable {k : Kind}

/-! ## Alike objects -/

theorem SameSearched.refl (members : Members) : k.SameSearched members members := fun _ _ => rfl

theorem SameSearched.accepts_iff {members members' : Members}
    (h : k.SameSearched members members') (hkeys : (members.map Prod.fst).Nodup)
    (hkeys' : (members'.map Prod.fst).Nodup) : k.Accepts members ↔ k.Accepts members' :=
  ⟨h.accepts hkeys hkeys', h.symm.accepts hkeys' hkeys⟩

theorem SameSearched.sameAnswers {members members' : Members}
    (h : k.SameSearched members members') (key : k.Key) :
    (k.entryOf (key, members)).SameAnswers (k.entryOf (key, members')) := by
  intro needle
  show (k.searchTexts key (k.fieldsOf members)).any _
    = (k.searchTexts key (k.fieldsOf members')).any _
  rw [h.searchTexts key]

/-! ## Alike documents -/

/-- Two values that are the same, or objects that agree on the searched keys. -/
inductive AlikeValues (k : Kind) : Value → Value → Prop where
  | same (v : Value) : AlikeValues k v v
  | objects {members members' : Members} : k.SameSearched members members' →
      AlikeValues k (.object members) (.object members')

/-- Two values under a collection's key that are the same, or lists of alike values, or
    objects of alike values under the same keys. -/
inductive AlikeBodies (k : Kind) : Value → Value → Prop where
  | same (v : Value) : AlikeBodies k v v
  | lists {items items' : List Value} : List.Forall₂ k.AlikeValues items items' →
      AlikeBodies k (.array items) (.array items')
  | keyed {members members' : Members} :
      List.Forall₂ (fun m m' => m.1 = m'.1 ∧ k.AlikeValues m.2 m'.2) members members' →
      AlikeBodies k (.object members) (.object members')

/-- Two documents that are the same, or objects with alike values under the collection's
    key. -/
inductive AlikeDocuments (k : Kind) : Value → Value → Prop where
  | same (v : Value) : AlikeDocuments k v v
  | objects {members members' : Members} :
      Option.Rel k.AlikeBodies (members.lookup k.dataKey) (members'.lookup k.dataKey) →
      AlikeDocuments k (.object members) (.object members')

theorem AlikeValues.symm {v v' : Value} (h : k.AlikeValues v v') : k.AlikeValues v' v := by
  cases h with
  | same => exact .same v
  | objects hsame => exact .objects hsame.symm

theorem AlikeBodies.symm {body body' : Value} (h : k.AlikeBodies body body') :
    k.AlikeBodies body' body := by
  cases h with
  | same => exact .same body
  | lists hitems => exact .lists (hitems.flip.imp fun _ _ hv => hv.symm)
  | keyed hmembers =>
    exact .keyed (hmembers.flip.imp fun _ _ hm => ⟨hm.1.symm, hm.2.symm⟩)

theorem AlikeDocuments.symm {document document' : Value} (h : k.AlikeDocuments document document') :
    k.AlikeDocuments document' document := by
  cases h with
  | same => exact .same document
  | objects hbodies => exact .objects (rel_swap (fun _ _ hbody => hbody.symm) hbodies)

/-! ## Rows of alike documents -/

/-- Two rows with the same key whose objects agree on the searched keys. -/
def AlikeRows (row row' : k.Row) : Prop := row.1 = row'.1 ∧ k.SameSearched row.2 row'.2

theorem forall₂_alikeRows_same (rows : List k.Row) : List.Forall₂ AlikeRows rows rows :=
  List.forall₂_same.2 fun row _ => ⟨rfl, .refl row.2⟩

theorem AlikeValues.exists_object {members : Members} {v' : Value}
    (h : k.AlikeValues (.object members) v') :
    ∃ members', v' = .object members' ∧ k.SameSearched members members' := by
  cases h with
  | same => exact ⟨members, rfl, .refl members⟩
  | objects hsame => exact ⟨_, rfl, hsame⟩

/-- Items that are alike to the objects of some rows are the objects of alike rows. -/
theorem exists_rows_of_items {rows : List k.Row} {items' : List Value}
    (h : List.Forall₂ k.AlikeValues (rows.map fun row => .object row.2) items') :
    ∃ rows' : List k.Row, items' = rows'.map (fun row => .object row.2) ∧
      List.Forall₂ AlikeRows rows rows' := by
  refine exists_map_of_forall₂ (fun row v' hv => ?_) h
  obtain ⟨members', rfl, hsame⟩ := hv.exists_object
  exact ⟨(row.1, members'), rfl, rfl, hsame⟩

/-- So are members that are alike to the keyed objects of some rows. -/
theorem exists_rows_of_members {rows : List blacklist.Row} {members' : Members}
    (h : List.Forall₂ (fun m m' => m.1 = m'.1 ∧ blacklist.AlikeValues m.2 m'.2)
      (rows.map fun row => (row.1, .object row.2)) members') :
    ∃ rows' : List blacklist.Row, members' = rows'.map (fun row => (row.1, .object row.2)) ∧
      List.Forall₂ AlikeRows rows rows' := by
  refine exists_map_of_forall₂ (fun row m' hm => ?_) h
  obtain ⟨key', v'⟩ := m'
  obtain ⟨hkey, hv⟩ := hm
  obtain ⟨members', rfl, hsame⟩ := hv.exists_object
  exact ⟨(key', members'), rfl, hkey, hsame⟩

/-- What is alike to the value of some rows is the value of alike rows. -/
theorem AlikeBodies.exists_rows {rows : List k.Row} {body' : Value}
    (h : k.AlikeBodies (k.rowsJson rows) body') :
    ∃ rows', body' = k.rowsJson rows' ∧ List.Forall₂ AlikeRows rows rows' := by
  have hsame := forall₂_alikeRows_same rows
  cases k with
  | blacklist =>
    generalize hbody : blacklist.rowsJson rows = body at h
    cases h with
    | same => exact ⟨rows, hbody.symm, hsame⟩
    | lists => cases hbody
    | keyed hmembers =>
      cases hbody
      obtain ⟨rows', rfl, hrows⟩ := exists_rows_of_members hmembers
      exact ⟨rows', rfl, hrows⟩
  | _ =>
    generalize hbody : rowsJson _ rows = body at h
    cases h with
    | same => exact ⟨rows, hbody.symm, hsame⟩
    | keyed => cases hbody
    | lists hitems =>
      cases hbody
      obtain ⟨rows', rfl, hrows⟩ := exists_rows_of_items hitems
      exact ⟨rows', rfl, hrows⟩

/-- The objects of the rows in a document that repeats no key repeat none. -/
theorem nodup_keys_of_lookup {members : Members} {rows : List k.Row}
    (hlookup : members.lookup k.dataKey = some (k.rowsJson rows))
    (hkeys : (Value.object members).KeysDistinct) :
    ∀ row ∈ rows, (row.2.map Prod.fst).Nodup := by
  obtain ⟨hnodup, hvalues⟩ := Json.keysDistinct_object_iff.1 hkeys
  have hbody := hvalues _ ((lookup_eq_some_iff_mem hnodup).1 hlookup)
  intro row hrow
  have hobject : (Value.object row.2).KeysDistinct := by
    cases k with
    | blacklist =>
      exact (Json.keysDistinct_object_iff.1 hbody).2 (row.1, .object row.2)
        (List.mem_map_of_mem hrow)
    | _ => exact Json.keysDistinct_array_iff.1 hbody _ (List.mem_map_of_mem hrow)
  exact (Json.keysDistinct_object_iff.1 hobject).1

/-- A document that is alike to one with rows holds alike rows. -/
theorem AlikeDocuments.exists_holdsRows {document document' : Value} {rows : List k.Row}
    (h : k.AlikeDocuments document document') (hkeys : document.KeysDistinct)
    (hkeys' : document'.KeysDistinct) (hrows : k.HoldsRows document rows) :
    ∃ rows', k.HoldsRows document' rows' ∧ List.Forall₂ AlikeRows rows rows' := by
  cases h with
  | same => exact ⟨rows, hrows, forall₂_alikeRows_same rows⟩
  | @objects members members' hbodies =>
    obtain ⟨⟨_, hmembers, hlookup⟩, haccepts⟩ := hrows
    cases hmembers
    rw [hlookup] at hbodies
    obtain ⟨body', hlookup', hbody⟩ := exists_of_rel_some hbodies
    obtain ⟨rows', rfl, halike⟩ := hbody.exists_rows
    refine ⟨rows', ⟨⟨members', rfl, hlookup'⟩, fun row' hrow' => ?_⟩, halike⟩
    -- The row that it is alike to is accepted.
    obtain ⟨row, hrow, -, hsame⟩ := exists_mem_of_forall₂ halike row' hrow'
    exact hsame.accepts (nodup_keys_of_lookup hlookup hkeys row hrow)
      (nodup_keys_of_lookup hlookup' hkeys' row' hrow') (haccepts row hrow)

theorem AlikeDocuments.noRecords {document document' : Value}
    (h : k.AlikeDocuments document document') (hnone : k.NoRecords document) :
    k.NoRecords document' := by
  cases h with
  | same => exact hnone
  | @objects members members' hbodies =>
    obtain h | h | ⟨_, h, hlookup⟩ := hnone
    · cases h
    · cases h
    · cases h
      refine .inr (.inr ⟨members', rfl, ?_⟩)
      -- Absent or null under the key, in the one as in the other.
      rcases hlookup with hlookup | hlookup
      · rw [hlookup] at hbodies
        exact .inl (eq_none_of_rel_none hbodies)
      · rw [hlookup] at hbodies
        obtain ⟨body', hlookup', hbody⟩ := exists_of_rel_some hbodies
        cases hbody
        exact .inr hlookup'

/-! ## Alike files -/

/-- Entries of a document stand in an alike document as well, each with the same answers. -/
theorem AlikeDocuments.exists_entries {document document' : Value} {es : List (Entry k)}
    (h : k.AlikeDocuments document document') (hkeys : document.KeysDistinct)
    (hkeys' : document'.KeysDistinct) (hes : k.entriesIn document = .ok es) :
    ∃ es', k.entriesIn document' = .ok es' ∧ List.Forall₂ Entry.SameAnswers es es' := by
  rcases entriesIn_eq_ok_iff_rows.1 hes with ⟨hnone, rfl⟩ | ⟨rows, hrows, rfl⟩
  · exact ⟨[], entriesIn_eq_ok_iff_rows.2 (.inl ⟨h.noRecords hnone, rfl⟩), .nil⟩
  · obtain ⟨rows', hrows', halike⟩ := h.exists_holdsRows hkeys hkeys' hrows
    refine ⟨_, entriesIn_eq_ok_iff_rows.2 (.inr ⟨rows', hrows', rfl⟩), ?_⟩
    rw [List.forall₂_map_left_iff, List.forall₂_map_right_iff]
    refine halike.imp fun row row' hrow => ?_
    obtain ⟨key, members⟩ := row
    obtain ⟨key', members'⟩ := row'
    obtain ⟨rfl, hsame⟩ := hrow
    exact hsame.sameAnswers key

/-- Two files hold texts whose documents are alike. -/
def AlikeFiles (k : Kind) (disk disk' : Disk) (directory directory' : String) : Prop :=
  ∃ content content' document document',
    disk.read (k.path directory) = .text content ∧
    disk'.read (k.path directory') = .text content' ∧
    Json.parse content = .ok document ∧ Json.parse content' = .ok document' ∧
    k.AlikeDocuments document document'

section Files

variable {disk disk' : Disk} {directory directory' : String}

theorem AlikeFiles.symm (h : k.AlikeFiles disk disk' directory directory') :
    k.AlikeFiles disk' disk directory' directory := by
  obtain ⟨content, content', document, document', hread, hread', hparse, hparse', halike⟩ := h
  exact ⟨content', content, document', document, hread', hread, hparse', hparse, halike.symm⟩

/-- A file that is alike to one that loads, loads, with the same answers entry by entry. -/
theorem AlikeFiles.exists_load {es : List (Entry k)}
    (h : k.AlikeFiles disk disk' directory directory') (hload : k.load disk directory = .ok es) :
    ∃ es', k.load disk' directory' = .ok es' ∧ List.Forall₂ Entry.SameAnswers es es' := by
  obtain ⟨content, content', document, document', hread, hread', hparse, hparse', halike⟩ := h
  have hcontent := ((load_of_text hread).1 es).1 hload
  obtain ⟨_, hdocument, hes⟩ := parse_eq_ok_iff.1 hcontent
  rw [hparse] at hdocument
  cases hdocument
  -- What was read repeats no key.
  have hkeys := (Json.keysDistinct_and_depth_le_of_parse hparse).1
  have hkeys' := (Json.keysDistinct_and_depth_le_of_parse hparse').1
  obtain ⟨es', hes', hanswers⟩ := halike.exists_entries hkeys hkeys' hes
  exact ⟨es', ((load_of_text hread').1 es').2 (parse_eq_ok_iff.2 ⟨document', hparse', hes'⟩),
    hanswers⟩

end Files

end Kind

/-- What a search does not read does not influence it, for every kind:

    * two objects that agree on the searched keys, in whatever order and whatever stands
      under other keys, are both accepted or both refused; if they are accepted, their
      records hold the same needles, under any key;
    * two data files that differ in nothing else under the collection's key both load or
      both fail; if they load, every query finds its matches at the same places in both;
    * the places of a query's matches are those at which a search of the catalog finds
      them. -/
theorem unread_fields_do_not_matter (k : Kind) :
    (∀ members members' : Members, (members.map Prod.fst).Nodup → (members'.map Prod.fst).Nodup →
      k.SameSearched members members' →
      ((∃ r, Record.ofMembers k members = .ok r) ↔ ∃ r, Record.ofMembers k members' = .ok r) ∧
      ∀ r r', Record.ofMembers k members = .ok r → Record.ofMembers k members' = .ok r' →
        ∀ (key : k.Key) (needle : List Char),
          Entry.holds needle ⟨key, r⟩ = Entry.holds needle ⟨key, r'⟩) ∧
    (∀ (disk disk' : Disk) (directory directory' : String),
      k.AlikeFiles disk disk' directory directory' →
      ((∃ es, k.load disk directory = .ok es) ↔ ∃ es, k.load disk' directory' = .ok es) ∧
      ∀ es es', k.load disk directory = .ok es → k.load disk' directory' = .ok es' →
        ∀ query, placesFound es query = placesFound es' query) ∧
    ∀ (c : Catalog) (query : String), (c.search query).matched k
      = (placesFound (c.entries k) query).filterMap fun i => (c.entries k)[i]?.map Entry.tagged := by
  refine ⟨?_, ?_, fun c query => searchEntries_eq_places (c.entries k) query⟩
  · intro members members' hkeys hkeys' hsame
    constructor
    · rw [Record.exists_ofMembers_eq_ok_iff, Record.exists_ofMembers_eq_ok_iff]
      exact hsame.accepts_iff hkeys hkeys'
    · intro r r' hr hr' key needle
      obtain ⟨-, rfl⟩ := Record.ofMembers_eq_ok_iff.1 hr
      obtain ⟨-, rfl⟩ := Record.ofMembers_eq_ok_iff.1 hr'
      exact hsame.sameAnswers key needle
  · intro disk disk' directory directory' halike
    constructor
    · constructor
      · rintro ⟨es, hes⟩
        obtain ⟨es', hes', -⟩ := halike.exists_load hes
        exact ⟨es', hes'⟩
      · rintro ⟨es', hes'⟩
        obtain ⟨es, hes, -⟩ := halike.symm.exists_load hes'
        exact ⟨es, hes⟩
    · intro es es' hes hes' query
      obtain ⟨found, hfound, hanswers⟩ := halike.exists_load hes
      rw [hes'] at hfound
      cases hfound
      exact placesFound_eq_of_sameAnswers hanswers query

/-! ## Two files -/

/-- A blog structure, with display-only fields before and after what is searched. -/
def shownOutline : Members :=
  [("id", .number (.int 7)), ("name", .string "List"), ("sections", .array [.string "Intro"])]

/-- The same blog structure with other values in the fields that are only shown, in another
    order. -/
def hiddenOutline : Members :=
  [("level", .object []), ("name", .string "List"), ("id", .null)]

theorem sameSearched_outlines : Kind.outline.SameSearched shownOutline hiddenOutline := by
  intro key hkey
  simp only [Kind.searched, List.map_cons, List.map_nil, List.mem_cons, List.not_mem_nil,
    or_false] at hkey
  rcases hkey with rfl | rfl | rfl <;> rfl

/-- A disk on which every file holds the same text. -/
def diskOf (content : String) : Disk where
  read _ := .text content
  isDirectory _ := true

/-- A file with the one blog structure. -/
def shownFile : String :=
  "\x7b\"structures\":[\x7b\"id\":7,\"name\":\"List\",\"sections\":[\"Intro\"]\x7d]\x7d"

/-- A file with the other one. -/
def hiddenFile : String :=
  "\x7b\"note\":1,\"structures\":[\x7b\"level\":\x7b\x7d,\"name\":\"List\",\"id\":null\x7d]\x7d"

theorem parse_shownFile :
    Json.parse shownFile = .ok (.object [("structures", .array [.object shownOutline])]) := by
  simp only [Json.parse, shownFile, String.reduceToList]
  rfl

theorem parse_hiddenFile : Json.parse hiddenFile
    = .ok (.object [("note", .number (.int 1)), ("structures", .array [.object hiddenOutline])]) := by
  simp only [Json.parse, hiddenFile, String.reduceToList]
  rfl

theorem alikeFiles_outlines :
    Kind.outline.AlikeFiles (diskOf shownFile) (diskOf hiddenFile) "a" "b" := by
  refine ⟨shownFile, hiddenFile, _, _, rfl, rfl, parse_shownFile, parse_hiddenFile, .objects ?_⟩
  exact .some (.lists (.cons (.objects sameSearched_outlines) .nil))

/-- The two structures are both accepted and hold the same needles; a query finds both files'
    matches at the same places. -/
theorem unread_fields_do_not_matter_sample :
    (∃ r, Record.ofMembers .outline hiddenOutline = .ok r) ∧
    (∃ es, Kind.outline.load (diskOf hiddenFile) "b" = .ok es ∧ placesFound es "LIST" = [0]) := by
  obtain ⟨hobjects, hfiles, -⟩ := unread_fields_do_not_matter .outline
  have haccepted : ∃ r, Record.ofMembers .outline shownOutline = .ok r := ⟨_, rfl⟩
  have hload : Kind.outline.load (diskOf shownFile) "a"
      = .ok [Kind.outline.entryOf ((), shownOutline)] :=
    Kind.load_eq_ok_iff.2 (.inr ⟨shownFile, rfl, Kind.parse_eq_ok_iff.2 ⟨_, parse_shownFile, rfl⟩⟩)
  refine ⟨?_, ?_⟩
  · exact (hobjects _ _ (by decide) (by decide) sameSearched_outlines).1.1 haccepted
  · obtain ⟨hload_iff, hplaces⟩ := hfiles _ _ _ _ alikeFiles_outlines
    obtain ⟨es, hes⟩ := hload_iff.1 ⟨_, hload⟩
    refine ⟨es, hes, ?_⟩
    rw [← hplaces _ es hload hes "LIST"]
    rfl

end Stylebook
