/-
  Stylebook.Proofs.FoundLines

  What can be read off the lines of a report. If the query and the texts that are shown
  stand on one line each, the lines of the report are those it was put together from, and
  every line is told by how it starts: a match by its bullet, a heading by its picture, a
  detail by its five spaces. So a filter on lines goes through the report piece by piece
  (`filter_foundReport`), and a section stands whole among the others
  (`foundReport_append_cons`). From these the matches can be counted
  (`found_report_shows_each_match_once`).
-/

import Stylebook.Proofs.FirstDelimiter

namespace Stylebook

open Text (OneLine StartsWith)

/-- The name of a record; in a keyed collection, its key. -/
def Kind.nameOf : (k : Kind) → k.Key → k.Fields → String
  | .style, _, (f : Style) => f.name
  | .tone, _, (f : Tone) => f.name
  | .outline, _, (f : Outline) => f.name
  | .industry, _, (f : Industry) => f.name
  | .blacklist, (key : String), _ => key

namespace Finding

/-- The collections in which something was found. -/
def kinds (f : Finding) : List Kind := Kind.all.filter fun k => !(f.matched k).isEmpty

/-- The names of what was found in some collections. -/
def names (f : Finding) (ks : List Kind) : List String :=
  ks.flatMap fun k => (f.matched k).map fun m => k.nameOf m.entry.key m.entry.record.fields

/-- The query, and each text that is shown of a match, stands on one line. -/
structure OnLines (f : Finding) : Prop where
  query : OneLine f.query
  shown : ∀ k, ∀ m ∈ f.matched k,
    ∀ text ∈ Report.shownTexts k m.category m.entry.record.fields, OneLine text

theorem mem_kinds_iff {f : Finding} {k : Kind} : k ∈ f.kinds ↔ f.matched k ≠ [] := by
  rw [kinds, List.mem_filter, and_iff_right k.mem_all]
  simp

end Finding

namespace Report

/-! ## One line for each piece -/

section OneLine

variable {k : Kind} {category : Option String} {fields : k.Fields}

theorem oneLine_displayName {name nameVi : String} (hname : OneLine name)
    (hnameVi : OneLine nameVi) : OneLine (displayName name nameVi) := by
  rw [displayName]
  split
  · exact hname
  · exact ((hname.append (by decide)).append hnameVi).append (by decide)

theorem oneLine_labelled {label : String} {items : List String} {shown : List String → String}
    (hlabel : OneLine label) (hitems : OneLine (shown items)) :
    OneLine (labelled label items shown) := by
  rw [labelled]
  split
  · exact Text.oneLine_empty
  · exact hlabel.append hitems

theorem oneLine_foundTitle (h : ∀ text ∈ shownTexts k category fields, OneLine text) :
    OneLine (foundTitle k category fields) := by
  cases k with
  | style | tone | outline =>
    exact oneLine_displayName (h _ (by simp [shownTexts])) (h _ (by simp [shownTexts]))
  | industry => exact h _ List.mem_cons_self
  | blacklist =>
    have hkey : OneLine (category.getD "") := h _ (by simp [shownTexts])
    simp only [foundTitle]
    split
    · exact hkey
    · exact (hkey.append (by decide)).append (h _ (by simp [shownTexts]))

theorem oneLine_foundDetail (h : ∀ text ∈ shownTexts k category fields, OneLine text) :
    OneLine (foundDetail k fields) := by
  cases k with
  | style | tone => exact h _ (by simp [shownTexts, foundDetail])
  | outline =>
    refine oneLine_labelled (by decide) (OneLine.intercalate (by decide) fun text htext => ?_)
    exact h text (List.mem_append_right _ htext)
  | industry =>
    refine oneLine_labelled (by decide) (Text.oneLine_preview fun text htext => ?_)
    exact h text (List.mem_cons_of_mem _ htext)
  | blacklist => exact Text.oneLine_empty

end OneLine

theorem oneLine_foundReport {f : Finding} (h : f.OnLines) :
    ∀ line ∈ foundReport f, OneLine line := by
  rw [forall_mem_foundReport_iff Text.oneLine_empty]
  refine ⟨?_, ?_, fun k _ => ⟨?_, fun m hm => ⟨?_, fun line hline => ?_⟩⟩⟩
  · exact (OneLine.append (by decide) h.query).append (by decide)
  · exact (OneLine.append (by decide) (Text.oneLine_toString f.total)).append (by decide)
  · cases k <;> decide
  · exact OneLine.append (by decide) (oneLine_foundTitle (h.shown k m hm))
  · rw [detail] at hline
    split at hline
    · cases hline
    · rw [List.mem_singleton.1 hline]
      exact OneLine.append (by decide) (oneLine_foundDetail (h.shown k m hm))

/-! ## The pieces of a report -/

/-- The line of a report that repeats the query. -/
def queryLine (query : String) : String := "🔍 Search Results for: '" ++ query ++ "'"

theorem queryLine_eq (query : String) :
    queryLine query = "🔍 Search Results for: '" ++ (query ++ "'") :=
  String.append_assoc

/-- The line of a report with the number of matches. -/
def numberLine (count : Nat) : String := "   Found " ++ toString count ++ " matches"

theorem numberLine_eq (count : Nat) :
    numberLine count = "   Found " ++ (toString count ++ " matches") :=
  String.append_assoc

/-- The line of a match with its name. -/
def bulletLine {k : Kind} (m : Match k) : String :=
  bullet ++ foundTitle k m.category m.entry.record.fields

/-- The lines of a collection's section. -/
def sectionLines (f : Finding) (k : Kind) : List String :=
  foundHeading k :: (f.matched k).flatMap foundLines

variable {f : Finding} {k : Kind}

theorem filterMap_foundSection (f : Finding) (ks : List Kind) :
    ks.filterMap (foundSection f)
      = (ks.filter fun k => !(f.matched k).isEmpty).map (sectionLines f) := by
  induction ks with
  | nil => rfl
  | cons k ks ih =>
    rw [List.filterMap_cons, List.filter_cons, ih, foundSection]
    by_cases hk : (f.matched k).isEmpty
    · simp [hk]
    · simp [hk, sectionLines]

theorem foundReport_eq (f : Finding) :
    foundReport f = ["", queryLine f.query, numberLine f.total, ""]
      ++ [""].intercalate (f.kinds.map (sectionLines f)) := by
  rw [foundReport, filterMap_foundSection]
  rfl

/-- A section among the others. -/
theorem foundReport_append_cons {earlier later : List Kind}
    (h : f.kinds = earlier ++ k :: later) :
    foundReport f = ["", queryLine f.query, numberLine f.total, ""]
      ++ earlier.flatMap (fun j => sectionLines f j ++ [""]) ++ sectionLines f k
      ++ later.flatMap (fun j => "" :: sectionLines f j) := by
  rw [foundReport_eq, h, List.map_append, List.map_cons, Text.intercalate_append_cons]
  simp only [List.flatMap_map, List.append_assoc, List.singleton_append]

/-! ## Filters on lines -/

section Filters

variable {keep : String → Bool}

/-- A filter that drops details leaves of a section at most its heading and the first line of
    each match. -/
theorem filter_sectionLines (hdetail : ∀ text, keep ("     " ++ text) = false) (f : Finding)
    (k : Kind) : (sectionLines f k).filter keep
      = [foundHeading k].filter keep ++ ((f.matched k).map bulletLine).filter keep := by
  -- Below the first line of a match stands a detail or nothing.
  have hbelow (text : String) : (detail text).filter keep = [] := by
    rw [detail]
    split
    · rfl
    · simp [hdetail]
  have hmatch (m : Match k) : (foundLines m).filter keep = [bulletLine m].filter keep := by
    rw [foundLines, ← List.singleton_append, List.filter_append]
    exact (congrArg _ (hbelow _)).trans (List.append_nil _)
  rw [sectionLines, ← List.singleton_append, List.filter_append, List.filter_flatMap,
    List.map_eq_flatMap, List.filter_flatMap]
  simp only [hmatch]

/-- A filter that drops blank lines goes through a report section by section. -/
theorem filter_foundReport (hblank : keep "" = false) (f : Finding) :
    (foundReport f).filter keep = [queryLine f.query, numberLine f.total].filter keep
      ++ f.kinds.flatMap fun k => (sectionLines f k).filter keep := by
  have hgap : [""].filter keep = [] := by simp [hblank]
  rw [foundReport_eq, List.filter_append, Text.filter_intercalate _ _ hgap, List.flatMap_map]
  simp only [List.filter_cons, hblank, List.filter_nil, Bool.false_eq_true, if_false]

end Filters

/-! ## Lines with a bullet -/

/-- The lines with a bullet. -/
def bulleted (lines : List String) : List String := lines.filter fun line => StartsWith bullet line

theorem not_bulleted_detail (text : String) : ¬ StartsWith bullet ("     " ++ text) :=
  Text.not_startsWith_append text (by decide) (by decide)

theorem not_bulleted_heading (k : Kind) : ¬ StartsWith bullet (foundHeading k) := by
  cases k <;> decide

theorem not_bulleted_queryLine (query : String) : ¬ StartsWith bullet (queryLine query) := by
  rw [queryLine_eq]
  exact Text.not_startsWith_append _ (by decide) (by decide)

theorem not_bulleted_numberLine (count : Nat) : ¬ StartsWith bullet (numberLine count) := by
  rw [numberLine_eq]
  exact Text.not_startsWith_append _ (by decide) (by decide)

theorem bulleted_map_bulletLine (ms : List (Match k)) :
    bulleted (ms.map bulletLine) = ms.map bulletLine := by
  refine List.filter_eq_self.2 fun line hline => ?_
  obtain ⟨m, -, rfl⟩ := List.mem_map.1 hline
  exact decide_eq_true (Text.startsWith_append _ _)

theorem bulleted_sectionLines (f : Finding) (k : Kind) :
    bulleted (sectionLines f k) = (f.matched k).map bulletLine := by
  rw [bulleted, filter_sectionLines fun text => decide_eq_false (not_bulleted_detail text),
    List.filter_cons_of_neg (by simpa using not_bulleted_heading k)]
  exact bulleted_map_bulletLine _

/-- Collections in which nothing was found have no lines with a bullet. -/
theorem flatMap_bulleted_sectionLines (f : Finding) (ks : List Kind) :
    (ks.filter fun k => !(f.matched k).isEmpty).flatMap (fun k => bulleted (sectionLines f k))
      = ks.flatMap fun k => (f.matched k).map bulletLine := by
  simp only [bulleted_sectionLines]
  refine Text.flatMap_filter_of_eq_nil fun k _ hk => ?_
  have hnone : f.matched k = [] := by simpa using hk
  rw [hnone, List.map_nil]

/-- In front of a section stand the lines with a bullet of the collections before it. -/
theorem bulleted_before (f : Finding) (ks : List Kind) :
    bulleted (["", queryLine f.query, numberLine f.total, ""]
      ++ (ks.filter fun k => !(f.matched k).isEmpty).flatMap fun k => sectionLines f k ++ [""])
      = ks.flatMap fun k => (f.matched k).map bulletLine := by
  have hhead : bulleted ["", queryLine f.query, numberLine f.total, ""] = [] := by
    have hblank : ¬ StartsWith bullet "" := by decide
    simp [bulleted, hblank, not_bulleted_queryLine, not_bulleted_numberLine]
  have hsection (k : Kind) :
      bulleted (sectionLines f k ++ [""]) = bulleted (sectionLines f k) := by
    rw [bulleted, List.filter_append]
    exact List.append_nil _
  rw [← flatMap_bulleted_sectionLines, bulleted, List.filter_append, List.filter_flatMap]
  exact congrArg₂ _ hhead (List.flatMap_congr fun k _ => hsection k)

/-! ## Names behind the bullets -/

/-- The title of an entry starts with its name. -/
theorem exists_foundTitle_eq (e : Entry k) :
    ∃ rest, foundTitle k e.category? e.record.fields = k.nameOf e.key e.record.fields ++ rest := by
  have hname (name nameVi : String) : ∃ rest, displayName name nameVi = name ++ rest := by
    rw [displayName]
    split
    · exact ⟨"", String.append_empty.symm⟩
    · exact ⟨" (" ++ nameVi ++ ")", by simp only [String.append_assoc]⟩
  cases k with
  | style | tone | outline => exact hname _ _
  | industry => exact ⟨"", String.append_empty.symm⟩
  | blacklist =>
    obtain ⟨(key : String), (f : PhraseGroup), raw⟩ := e
    show ∃ rest, (if f.description = "" then key else key ++ ": " ++ f.description) = key ++ rest
    split
    · exact ⟨"", String.append_empty.symm⟩
    · exact ⟨": " ++ f.description, String.append_assoc⟩

/-- A name stands behind the bullet of a line. -/
def Names (name line : String) : Prop := StartsWith (bullet ++ name) line

theorem names_bulletLine (e : Entry k) :
    Names (k.nameOf e.key e.record.fields) (bulletLine e.tagged) := by
  obtain ⟨rest, hrest⟩ := exists_foundTitle_eq e
  have hline : bulletLine e.tagged = bullet ++ k.nameOf e.key e.record.fields ++ rest := by
    rw [String.append_assoc, ← hrest]
    rfl
  rw [Names, hline]
  exact Text.startsWith_append _ _

/-- The lines with a bullet name the matches, collection by collection. -/
theorem forall₂_names (c : Catalog) (query : String) (ks : List Kind) :
    List.Forall₂ Names ((c.search query).names ks)
      (ks.flatMap fun k => ((c.search query).matched k).map bulletLine) := by
  induction ks with
  | nil => exact .nil
  | cons k ks ih =>
    rw [Finding.names, List.flatMap_cons, List.flatMap_cons]
    refine List.rel_append ?_ ih
    rw [List.forall₂_map_left_iff, List.forall₂_map_right_iff, List.forall₂_same]
    intro m hm
    -- The category of a match is its key.
    rw [eq_tagged_of_mem_searchEntries hm]
    exact names_bulletLine m.entry

/-! ## The lines of a report -/

theorem bulleted_foundReport (f : Finding) :
    bulleted (foundReport f) = Kind.all.flatMap fun k => (f.matched k).map bulletLine := by
  have hhead : [queryLine f.query, numberLine f.total].filter
      (fun line => StartsWith bullet line) = [] := by
    simp [not_bulleted_queryLine, not_bulleted_numberLine]
  rw [bulleted, filter_foundReport (by decide), hhead, List.nil_append]
  exact flatMap_bulleted_sectionLines f Kind.all

/-- One line with a number stands in a report. -/
theorem filter_number_foundReport (f : Finding) :
    (foundReport f).filter (fun line => StartsWith "   Found " line) = [numberLine f.total] := by
  have hquery : ¬ StartsWith "   Found " (queryLine f.query) := by
    rw [queryLine_eq]
    exact Text.not_startsWith_append _ (by decide) (by decide)
  have hnumber : StartsWith "   Found " (numberLine f.total) := by
    rw [numberLine_eq]
    exact Text.startsWith_append _ _
  have hsection (k : Kind) :
      (sectionLines f k).filter (fun line => StartsWith "   Found " line) = [] := by
    have hheading : ¬ StartsWith "   Found " (foundHeading k) := by cases k <;> decide
    have hbullet (m : Match k) : ¬ StartsWith "   Found " (bulletLine m) :=
      Text.not_startsWith_append _ (by decide) (by decide)
    have hdetail (text : String) : ¬ StartsWith "   Found " ("     " ++ text) :=
      Text.not_startsWith_append text (by decide) (by decide)
    rw [filter_sectionLines fun text => decide_eq_false (hdetail text)]
    simp [hheading, hbullet]
  rw [filter_foundReport (by decide)]
  simp [hquery, hnumber, hsection]

/-- The lines that are headings are those of the collections in which something was found. -/
theorem filter_heading_foundReport (f : Finding) :
    (foundReport f).filter (fun line => line ∈ Kind.all.map foundHeading)
      = f.kinds.map foundHeading := by
  have hother {front : String} (rest : String)
      (h : ∀ k ∈ Kind.all, ¬ StartsWith front (foundHeading k)) :
      decide (front ++ rest ∈ Kind.all.map foundHeading) = false := by
    refine decide_eq_false fun hmem => ?_
    obtain ⟨k, hk, heq⟩ := List.mem_map.1 hmem
    exact h k hk (heq ▸ Text.startsWith_append front rest)
  have hhead : [queryLine f.query, numberLine f.total].filter
      (fun line => line ∈ Kind.all.map foundHeading) = [] := by
    rw [queryLine_eq, numberLine_eq, List.filter_cons_of_neg, List.filter_cons_of_neg]
    · rfl
    · exact Bool.eq_false_iff.1 (hother _ (by decide))
    · exact Bool.eq_false_iff.1 (hother _ (by decide))
  have hsection (k : Kind) : (sectionLines f k).filter
      (fun line => line ∈ Kind.all.map foundHeading) = [foundHeading k] := by
    have hheading : foundHeading k ∈ Kind.all.map foundHeading := List.mem_map_of_mem k.mem_all
    have hbullets : ((f.matched k).map bulletLine).filter
        (fun line => line ∈ Kind.all.map foundHeading) = [] := by
      refine List.filter_eq_nil_iff.2 fun line hline => ?_
      obtain ⟨m, -, rfl⟩ := List.mem_map.1 hline
      exact Bool.eq_false_iff.1 (hother _ (by decide))
    rw [filter_sectionLines fun text => hother text (by decide), hbullets, List.append_nil]
    exact List.filter_cons_of_pos (decide_eq_true hheading)
  rw [filter_foundReport (by decide), hhead, List.nil_append]
  exact (List.flatMap_congr fun k _ => hsection k).trans List.map_eq_flatMap.symm

/-- No line of a section is blank. -/
theorem blank_notMem_sectionLines (f : Finding) (k : Kind) : "" ∉ sectionLines f k := by
  have hheading : (foundHeading k == "") = false := by cases k <;> decide
  have hnone : (sectionLines f k).filter (· == "") = [] := by
    rw [filter_sectionLines (fun text => by simp)]
    simp [hheading, bulletLine, bullet]
  intro hmem
  have hblank := List.filter_eq_nil_iff.1 hnone "" hmem
  simp at hblank

/-- The blank lines of a report: one before and one behind its head, and one between every two
    sections. -/
theorem count_blank_foundReport (h : f.kinds ≠ []) :
    (foundReport f).count "" = f.kinds.length + 1 := by
  have hsection (k : Kind) : (sectionLines f k).count "" = 0 :=
    List.count_eq_zero.2 (blank_notMem_sectionLines f k)
  have hlater (ks : List Kind) :
      (ks.flatMap fun j => "" :: sectionLines f j).count "" = ks.length := by
    induction ks with
    | nil => rfl
    | cons k ks ih => simp [hsection, ih]
  have hquery : queryLine f.query ≠ "" := by simp [queryLine_eq]
  have hnumber : numberLine f.total ≠ "" := by simp [numberLine_eq]
  obtain ⟨first, rest, hkinds⟩ := List.exists_cons_of_ne_nil h
  have hfront : f.kinds = [] ++ first :: rest := hkinds
  rw [foundReport_append_cons hfront, hkinds]
  simp [hquery, hnumber, hsection, hlater]

theorem exists_getLast?_foundReport (h : f.kinds ≠ []) :
    ∃ line, (foundReport f).getLast? = some line ∧ line ≠ "" := by
  obtain ⟨front, last, hkinds⟩ := (List.eq_nil_or_concat f.kinds).resolve_left h
  rw [List.concat_eq_append] at hkinds
  have hne : sectionLines f last ≠ [] := List.cons_ne_nil _ _
  refine ⟨(sectionLines f last).getLast hne, ?_, ?_⟩
  · rw [foundReport_append_cons hkinds, List.flatMap_nil, List.append_nil, List.getLast?_append,
      List.getLast?_eq_some_getLast hne]
    rfl
  · exact ne_of_mem_of_not_mem (List.getLast_mem hne) (blank_notMem_sectionLines f last)

/-! ## What the lines tell -/

/-- What can be read off the lines of a report on a finding. -/
structure Tells (f : Finding) (lines : List String) : Prop where
  /-- One line gives a number, and it is that of the lines with a bullet. -/
  number : lines.filter (fun line => StartsWith "   Found " line)
    = [numberLine (bulleted lines).length]
  total : (bulleted lines).length = f.total
  /-- Behind the bullets stand the names of the matches, each once and in their order. -/
  names : List.Forall₂ Names (f.names Kind.all) (bulleted lines)
  /-- The headings are those of the collections in which something was found, in the fixed
      order. -/
  headings : lines.filter (fun line => line ∈ Kind.all.map foundHeading)
    = f.kinds.map foundHeading
  /-- Before a heading stand the names in the collections before it, and under it those in its
      own collection, from the first line on. -/
  sections : ∀ earlier k later, Kind.all = earlier ++ k :: later → f.matched k ≠ [] →
    ∃ before first below after, lines = before ++ foundHeading k :: first :: below ++ after ∧
      List.Forall₂ Names (f.names earlier) (bulleted before) ∧
      List.Forall₂ Names (f.names [k]) (bulleted (first :: below)) ∧
      StartsWith bullet first ∧ first ≠ ""
  blanks : lines.count "" = f.kinds.length + 1
  last : ∃ line, lines.getLast? = some line ∧ line ≠ ""

/-- Before and under the heading of a collection stand the names of its matches and of those
    before it. -/
theorem exists_foundReport_eq (c : Catalog) (query : String) {earlier later : List Kind}
    (hall : Kind.all = earlier ++ k :: later) (hk : (c.search query).matched k ≠ []) :
    ∃ before first below after,
      foundReport (c.search query) = before ++ foundHeading k :: first :: below ++ after ∧
      List.Forall₂ Names ((c.search query).names earlier) (bulleted before) ∧
      List.Forall₂ Names ((c.search query).names [k]) (bulleted (first :: below)) ∧
      StartsWith bullet first ∧ first ≠ "" := by
  generalize hf : c.search query = f at hk ⊢
  have hkinds : f.kinds = (earlier.filter fun k => !(f.matched k).isEmpty)
      ++ k :: later.filter fun k => !(f.matched k).isEmpty := by
    rw [Finding.kinds, hall, List.filter_append, List.filter_cons_of_pos (by simpa using hk)]
  have hreport := foundReport_append_cons hkinds
  -- Its section starts with the heading and the line of the first match.
  obtain ⟨m, ms, hmatched⟩ := List.exists_cons_of_ne_nil hk
  obtain ⟨below, hbelow⟩ : ∃ below, sectionLines f k = foundHeading k :: bulletLine m :: below :=
    ⟨_, by rw [sectionLines, hmatched]; rfl⟩
  rw [hbelow] at hreport
  refine ⟨_, bulletLine m, below, _, hreport, ?_, ?_, Text.startsWith_append _ _, ?_⟩
  · rw [bulleted_before, ← hf]
    exact forall₂_names c query earlier
  · have hheading : bulleted (foundHeading k :: bulletLine m :: below)
        = bulleted (bulletLine m :: below) :=
      List.filter_cons_of_neg (by simpa using not_bulleted_heading k)
    have hlines : bulleted (bulletLine m :: below) = (f.matched k).map bulletLine := by
      rw [← hheading, ← hbelow, bulleted_sectionLines]
    have hnames := forall₂_names c query [k]
    rw [List.flatMap_singleton, hf] at hnames
    rw [hlines]
    exact hnames
  · simp [bulletLine, bullet]

theorem length_bulleted_foundReport (c : Catalog) (query : String) :
    (bulleted (foundReport (c.search query))).length = (c.search query).total := by
  rw [bulleted_foundReport, c.total_search]
  simp [Kind.all]
  omega

theorem tells_foundReport (c : Catalog) (query : String) (h : 0 < (c.search query).total) :
    Tells (c.search query) (foundReport (c.search query)) := by
  -- If something was found, it was found in some collection.
  have hkinds : (c.search query).kinds ≠ [] := by
    intro hnil
    have hnone (k : Kind) : (c.search query).matched k = [] := by
      by_contra hk
      rw [← ne_eq, ← Finding.mem_kinds_iff, hnil] at hk
      cases hk
    rw [c.total_search] at h
    simp [hnone] at h
  have hlength := length_bulleted_foundReport c query
  exact {
    number := by rw [filter_number_foundReport, hlength]
    total := hlength
    names := by
      rw [bulleted_foundReport]
      exact forall₂_names c query Kind.all
    headings := filter_heading_foundReport _
    sections := fun _ _ _ hall hk => exists_foundReport_eq c query hall hk
    blanks := count_blank_foundReport hkinds
    last := exists_getLast?_foundReport hkinds }

/-! ## Nothing found -/

/-- Behind a blank line, the second character of a text is the first one of its next line. -/
theorem getElem?_one_unlines {line : String} {rest : List String} {c : Char}
    (h : line.toList.head? = some c) :
    (Text.unlines ("" :: line :: rest)).toList[1]? = some c := by
  obtain ⟨tail, htail⟩ := List.head?_eq_some_iff.1 h
  rw [Text.unlines, String.toList_intercalate, List.map_cons, List.map_cons,
    Text.intercalate_cons, htail]
  rfl

/-- The report says that nothing was found exactly if nothing was found. -/
theorem ofFinding_eq_nothingFound_iff (c : Catalog) (query : String) :
    ofFinding (c.search query) false = Text.unlines (nothingFound query) ↔
      ∀ k, (c.search query).matched k = [] := by
  rw [← c.isEmpty_search_iff query]
  show findingText (c.search query) = _ ↔ _
  rw [findingText]
  split
  · next hempty => exact iff_of_true rfl hempty
  · next hempty =>
    refine iff_of_false (fun heq => ?_) hempty
    -- The two texts differ in the picture on their second line.
    have hfound : (Text.unlines (foundReport (c.search query))).toList[1]? = some '🔍' := by
      rw [foundReport_eq, queryLine_eq]
      exact getElem?_one_unlines (Text.head?_append _ rfl)
    have hnothing : (Text.unlines (nothingFound query)).toList[1]? = some '❌' := by
      rw [nothingFound, String.append_assoc]
      exact getElem?_one_unlines (Text.head?_append _ rfl)
    rw [heq, hnothing] at hfound
    exact absurd hfound (by decide)

end Report

/-- The report of a search, for every catalog and every query.

    * If the query and the texts that are shown of the matches stand on one line each, and
      something was found, the matches can be counted on the lines of the text: the number that
      is given is that of the lines with a bullet, which is the total; behind the bullets stand
      the names (in the blacklist the keys) of the matches in their order; the headings are
      those of the collections in which something was found, in the fixed order, each before
      the first bullet of its collection and behind those of the collections before it; there
      is one blank line more than there are sections, and none of them is the first line of a
      section's body or the last line of the text.
    * The report is a blank line and the line that says that nothing was found exactly if
      nothing was found in any collection. -/
theorem found_report_shows_each_match_once (c : Catalog) (query : String) :
    ((c.search query).OnLines → 0 < (c.search query).total →
      Report.Tells (c.search query) (Text.lines (Report.ofFinding (c.search query) false))) ∧
    (Report.ofFinding (c.search query) false
        = Text.unlines ["", "❌ No results found for: '" ++ query ++ "'"] ↔
      ∀ k, (c.search query).matched k = []) ∧
    (OneLine query → (∀ k, (c.search query).matched k = []) →
      Text.lines (Report.ofFinding (c.search query) false)
        = ["", "❌ No results found for: '" ++ query ++ "'"]) := by
  have hnothing := Report.ofFinding_eq_nothingFound_iff c query
  refine ⟨fun hlines htotal => ?_, hnothing, fun hquery hnone => ?_⟩
  · have htext : Report.ofFinding (c.search query) false
        = Text.unlines (Report.foundReport (c.search query)) := by
      show Report.findingText (c.search query) = _
      rw [Report.findingText, if_neg]
      rw [Finding.isEmpty, beq_iff_eq]
      omega
    have hne : Report.foundReport (c.search query) ≠ [] := by
      rw [Report.foundReport_eq]
      exact List.cons_ne_nil _ _
    rw [htext, Text.lines_unlines hne (Report.oneLine_foundReport hlines)]
    exact Report.tells_foundReport c query htotal
  · rw [hnothing.2 hnone]
    refine Text.lines_unlines (List.cons_ne_nil _ _) ?_
    rw [Report.nothingFound, List.forall_mem_cons, List.forall_mem_singleton]
    exact ⟨Text.oneLine_empty, (OneLine.append (by decide) hquery).append (by decide)⟩

/-! ## A search with two sections -/

/-- Two tones, one of them with a Vietnamese name and a description, and a group of phrases
    that has nothing but its key. -/
def barCatalog : Catalog where
  entries
    | .tone => [⟨(), ⟨⟨"1", "bar", "", ""⟩, []⟩⟩, ⟨(), ⟨⟨"2", "crowbar", "xà beng", "heavy"⟩, []⟩⟩]
    | .blacklist => [⟨("barred" : String), ⟨⟨"", []⟩, []⟩⟩]
    | _ => []

/-- Three matches in two sections: three lines with a bullet and three blank lines. In the other
    case there are two lines in all. -/
theorem found_report_shows_each_match_once_sample :
    (Report.bulleted (Text.lines (Report.ofFinding (barCatalog.search "bar") false))).length = 3 ∧
    (Text.lines (Report.ofFinding (barCatalog.search "bar") false)).count "" = 3 ∧
    (Text.lines (Report.ofFinding (barCatalog.search "rod") false)).length = 2 := by
  have hshown : (barCatalog.search "bar").OnLines := by
    refine ⟨by decide, fun k m hm => ?_⟩
    cases k with
    | tone =>
      rcases List.mem_cons.1 hm with rfl | hm
      · decide
      · obtain rfl := List.mem_singleton.1 hm
        decide
    | blacklist =>
      obtain rfl := List.mem_singleton.1 hm
      decide
    | _ => cases hm
  have htells := (found_report_shows_each_match_once barCatalog "bar").1 hshown (by decide)
  refine ⟨htells.total, htells.blanks, ?_⟩
  have hnone (k : Kind) : (barCatalog.search "rod").matched k = [] := by
    cases k <;> rfl
  rw [(found_report_shows_each_match_once barCatalog "rod").2.2 (by decide) hnone]
  rfl

end Stylebook
