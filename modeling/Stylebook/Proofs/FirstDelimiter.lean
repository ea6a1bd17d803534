/-
  Stylebook.Proofs.FirstDelimiter

  The report of a search with its JSON, taken apart at the first place of the delimiter. The
  text of the report repeats the query and texts of the records as they are, so it can hold
  the delimiter itself, and then the first cut is too early. Exactly this is what can go
  wrong (`json_behind_first_delimiter_iff`): the delimiter stands in the query, or in what is
  said of a match with the line feed behind it. It does not if the query and the texts that
  are shown do not even hold the delimiter without its line feed at the end.
-/

import Stylebook.Proofs.JsonBehindText
import Stylebook.Proofs.Loading
import Stylebook.Proofs.SearchPieces
import Stylebook.Proofs.Text.Lines

namespace Stylebook

open Text (ended Separates)

namespace Report

/-! ## Lines of a report -/

/-- What holds of all lines of a report in which something was found. -/
theorem forall_mem_foundReport_iff {p : String → Prop} (hblank : p "") (f : Finding) :
    (∀ line ∈ foundReport f, p line) ↔
      p ("🔍 Search Results for: '" ++ f.query ++ "'") ∧
      p ("   Found " ++ toString f.total ++ " matches") ∧
      ∀ k, f.matched k ≠ [] → p (foundHeading k) ∧ ∀ m ∈ f.matched k,
        p (bullet ++ foundTitle k m.category m.entry.record.fields) ∧
        ∀ line ∈ detail (foundDetail k m.entry.record.fields), p line := by
  have hsections : (∀ line ∈ [""].intercalate (Kind.all.filterMap (foundSection f)), p line) ↔
      ∀ k, f.matched k ≠ [] → p (foundHeading k) ∧ ∀ m ∈ f.matched k,
        p (bullet ++ foundTitle k m.category m.entry.record.fields) ∧
        ∀ line ∈ detail (foundDetail k m.entry.record.fields), p line := by
    rw [Text.forall_mem_intercalate_iff (List.forall_mem_singleton.2 hblank)]
    constructor
    · intro h k hk
      have hlines := h (foundHeading k :: (f.matched k).flatMap foundLines)
        (List.mem_filterMap.2 ⟨k, k.mem_all, by simp [foundSection, hk]⟩)
      rw [List.forall_mem_cons] at hlines
      refine ⟨hlines.1, fun m hm => List.forall_mem_cons.1 fun line hline => ?_⟩
      exact hlines.2 line (List.mem_flatMap.2 ⟨m, hm, hline⟩)
    · intro h lines hlines
      obtain ⟨k, -, hk⟩ := List.mem_filterMap.1 hlines
      rw [foundSection] at hk
      split at hk
      · cases hk
      · next hne =>
        obtain rfl := Option.some.inj hk
        have hsection := h k (by simpa using hne)
        refine List.forall_mem_cons.2 ⟨hsection.1, fun line hline => ?_⟩
        obtain ⟨m, hm, hmem⟩ := List.mem_flatMap.1 hline
        exact List.forall_mem_cons.2 (hsection.2 m hm) line hmem
  rw [foundReport, List.forall_mem_append, hsections]
  simp [hblank, and_assoc]

/-- A line starts neither with a line feed nor as the line of the delimiter. -/
def StartsApart (line : String) : Prop := ∀ c ∈ line.toList.head?, c ≠ '\n' ∧ c ≠ '-'

theorem startsApart_append {front : String} {c : Char} (text : String)
    (hfront : front.toList.head? = some c) (hc : c ≠ '\n' ∧ c ≠ '-') :
    StartsApart (front ++ text) := by
  intro d hd
  rw [String.toList_append, List.head?_append, hfront] at hd
  exact Option.some.inj hd ▸ hc

theorem startsApart_of_mem_nothingFound (query : String) :
    ∀ line ∈ nothingFound query, StartsApart line := by
  rw [nothingFound, List.forall_mem_cons, List.forall_mem_singleton]
  refine ⟨by simp [StartsApart], ?_⟩
  rw [String.append_assoc]
  exact startsApart_append _ (c := '❌') rfl (by decide)

theorem startsApart_of_mem_foundReport (f : Finding) :
    ∀ line ∈ foundReport f, StartsApart line := by
  rw [forall_mem_foundReport_iff (by simp [StartsApart])]
  refine ⟨?_, ?_, fun k _ => ⟨?_, fun m _ => ⟨?_, fun line hline => ?_⟩⟩⟩
  · rw [String.append_assoc]
    exact startsApart_append _ (c := '🔍') rfl (by decide)
  · rw [String.append_assoc]
    exact startsApart_append _ (c := ' ') rfl (by decide)
  · cases k <;> simp [StartsApart, foundHeading]
  · exact startsApart_append _ (c := ' ') rfl (by decide)
  · rw [detail] at hline
    split at hline
    · cases hline
    · rw [List.mem_singleton.1 hline]
      exact startsApart_append _ (c := ' ') rfl (by decide)

/-! ## Places of the delimiter -/

/-- A text, with a line feed behind it, does not hold the delimiter. -/
def Plain (text : String) : Prop := ¬ delimiter.toList <:+: ended text

theorem delimiter_ne_nil : delimiter.toList ≠ [] := by
  rw [delimiter_eq]
  exact List.cons_ne_nil _ _

theorem head?_delimiter : delimiter.toList.head? = some '\n' := by
  rw [delimiter_eq]
  rfl

theorem plain_append_iff {front : String} (text : String) (h : '\n' ∉ front.toList) :
    Plain (front ++ text) ↔ Plain text := by
  rw [Plain, ended, String.toList_append, List.append_assoc,
    Text.infix_append_iff_of_head head?_delimiter h, Plain, ended]

theorem plain_of_newline_notMem {text : String} (h : '\n' ∉ text.toList) : Plain text := by
  rw [← String.append_empty (s := text), plain_append_iff _ h, Plain]
  decide

/-- The quote behind the query keeps the line feed away from it. -/
theorem plain_quoted_iff {front : String} (query : String) (h : '\n' ∉ front.toList) :
    Plain (front ++ query ++ "'") ↔ ¬ delimiter.toList <:+: query.toList := by
  have hquoted : ended (query ++ "'") = query.toList ++ '\x27' :: ['\n'] := by
    simp [ended]
  rw [String.append_assoc, plain_append_iff _ h, Plain, hquoted,
    Text.infix_append_cons_iff delimiter_ne_nil (by decide), or_iff_left (by decide)]

theorem forall_mem_detail_plain_iff (text : String) :
    (∀ line ∈ detail text, Plain line) ↔ Plain text := by
  rw [detail]
  split
  · next h =>
    have hplain : Plain "" := plain_of_newline_notMem (by simp)
    simp [h, hplain]
  · rw [List.forall_mem_singleton, plain_append_iff text (by decide)]

/-- Lines put together hold the delimiter if one of them does. -/
theorem plain_unlines_iff {lines : List String} (hne : lines ≠ [])
    (h : ∀ line ∈ lines, StartsApart line) :
    Plain (Text.unlines lines) ↔ ∀ line ∈ lines, Plain line := by
  have hline := newline_notMem_delimiterLine
  rw [delimiterLine_eq] at hline
  have hlines := Text.infix_lines_iff hline h
  rw [Plain, Text.ended_unlines hne, delimiter_eq, delimiterLine_eq]
  refine (not_congr hlines).trans ?_
  rw [not_exists]
  exact forall_congr' fun line => not_and

theorem plain_nothingFound_iff (query : String) :
    Plain (Text.unlines (nothingFound query)) ↔ ¬ delimiter.toList <:+: query.toList := by
  rw [plain_unlines_iff (by simp [nothingFound]) (startsApart_of_mem_nothingFound query),
    nothingFound, List.forall_mem_cons, List.forall_mem_singleton,
    and_iff_right (plain_of_newline_notMem (by simp)), plain_quoted_iff query (by decide)]

theorem plain_foundReport_iff (f : Finding) :
    Plain (Text.unlines (foundReport f)) ↔ ¬ delimiter.toList <:+: f.query.toList ∧
      ∀ k, ∀ m ∈ f.matched k, Plain (foundTitle k m.category m.entry.record.fields) ∧
        Plain (foundDetail k m.entry.record.fields) := by
  have hcount : Plain ("   Found " ++ toString f.total ++ " matches") := by
    rw [String.append_assoc, plain_append_iff _ (by decide)]
    apply plain_of_newline_notMem
    rw [String.toList_append, List.mem_append, not_or]
    exact ⟨Text.oneLine_toString f.total, by decide⟩
  have hheading (k : Kind) : Plain (foundHeading k) := by
    apply plain_of_newline_notMem
    cases k <;> decide
  rw [plain_unlines_iff (by simp [foundReport]) (startsApart_of_mem_foundReport f),
    forall_mem_foundReport_iff (plain_of_newline_notMem (by simp)),
    plain_quoted_iff f.query (by decide), and_iff_right hcount]
  refine and_congr_right fun _ => forall_congr' fun k => ?_
  have hbullet : '\n' ∉ bullet.toList := by decide
  simp only [hheading, true_and, plain_append_iff _ hbullet, forall_mem_detail_plain_iff]
  -- Where nothing was found, nothing is said.
  constructor
  · intro h m hm
    exact h (List.ne_nil_of_mem hm) m hm
  · exact fun h _ => h

/-- The text of what a search found, with a line feed behind it, holds the delimiter if the
    query does or if what is said of a match does. -/
theorem plain_findingText_iff (c : Catalog) (query : String) :
    Plain (findingText (c.search query)) ↔ ¬ delimiter.toList <:+: query.toList ∧
      ∀ k, ∀ m ∈ (c.search query).matched k,
        Plain (foundTitle k m.category m.entry.record.fields) ∧
        Plain (foundDetail k m.entry.record.fields) := by
  rw [findingText]
  split
  · next hempty =>
    have hnone := (c.isEmpty_search_iff query).1 hempty
    rw [plain_nothingFound_iff]
    refine (and_iff_left fun k m hm => ?_).symm
    rw [hnone k] at hm
    cases hm
  · exact plain_foundReport_iff (c.search query)

/-! ## The first cut -/

/-- Cut at the first place of the delimiter, the report with JSON is the report without it and
    the JSON on lines. -/
def CutsAtFirst (f : Finding) : Prop :=
  Text.splitAtFirst? delimiter.toList (ofFinding f true).toList
    = some ((ofFinding f false).toList, f.toJson.pretty.toList)

/-- The first cut is the right one if the text of the report does not hold the delimiter. That
    the text may end with a part of it does no harm, but for a line feed. -/
theorem cutsAtFirst_iff (f : Finding) : CutsAtFirst f ↔ Plain (findingText f) := by
  rw [CutsAtFirst, toList_ofFinding]
  exact Text.splitAtFirst?_append_iff (by decide) (by decide)

/-! ## Texts that are shown -/

/-- The texts of a match that the report repeats. -/
def shownTexts : (k : Kind) → Option String → k.Fields → List String
  | .style, _, (f : Style) => [f.name, f.nameVi, f.description]
  | .tone, _, (f : Tone) => [f.name, f.nameVi, f.description]
  | .outline, _, (f : Outline) => [f.name, f.nameVi] ++ headings f
  | .industry, _, (f : Industry) => f.name :: f.topics.take topicLimit
  | .blacklist, category, (f : PhraseGroup) => [category.getD "", f.description]

/-- The delimiter without the line feed at its end. -/
def delimiterFront : List Char := '\n' :: '\n' :: delimiterLine

theorem delimiterFront_infix {s : List Char} (h : delimiter.toList <:+: s) :
    delimiterFront <:+: s := by
  have heq : delimiter.toList = delimiterFront ++ ['\n'] := rfl
  rw [heq] at h
  exact (List.prefix_append _ _).isInfix.trans h

theorem head?_delimiterFront : delimiterFront.head? = some '\n' := rfl

theorem getLast?_delimiterFront : delimiterFront.getLast? = some '-' := rfl

/-- Between texts may stand what lacks the characters at both ends of the delimiter, and has
    one that the delimiter lacks. -/
theorem separates_of_notMem {gap : List Char} {c : Char} (hc : c ∈ gap)
    (hcrossing : c ∉ delimiterFront) (hfront : '\n' ∉ gap) (hback : '-' ∉ gap) :
    Separates gap delimiterFront :=
  ⟨⟨c, hc, hcrossing⟩, ⟨'\n', head?_delimiterFront, hfront⟩, ⟨'-', getLast?_delimiterFront, hback⟩⟩

/-- A text holds the delimiter, the line feed at its end aside. -/
def Feigns (text : String) : Prop := delimiterFront <:+: text.toList

theorem plain_of_not_feigns {text : String} (h : ¬ Feigns text) : Plain text := by
  intro hdelimiter
  have hfeigned := delimiterFront_infix hdelimiter
  rw [ended, Text.infix_append_iff_of_last getLast?_delimiterFront (by decide)] at hfeigned
  exact h hfeigned

theorem not_feigns_empty : ¬ Feigns "" := by
  rw [Feigns]
  decide

theorem feigns_append_iff {front : String} (text : String) (h : '\n' ∉ front.toList) :
    Feigns (front ++ text) ↔ Feigns text := by
  rw [Feigns, String.toList_append,
    Text.infix_append_iff_of_head head?_delimiterFront h, Feigns]

theorem feigns_append_iff_left {back : String} (text : String) (h : '-' ∉ back.toList) :
    Feigns (text ++ back) ↔ Feigns text := by
  rw [Feigns, String.toList_append,
    Text.infix_append_iff_of_last getLast?_delimiterFront h, Feigns]

/-- What stands between two texts on a line. -/
theorem feigns_between_iff {gap : String} (h : Separates gap.toList delimiterFront)
    (text text' : String) : Feigns (text ++ gap ++ text') ↔ Feigns text ∨ Feigns text' := by
  rw [Feigns, String.toList_append, String.toList_append,
    h.infix_append_iff, Feigns, Feigns]

theorem feigns_intercalate_iff (texts : List String) :
    Feigns (", ".intercalate texts) ↔ ∃ text ∈ texts, Feigns text := by
  have hgap : Separates ", ".toList delimiterFront :=
    separates_of_notMem (c := ',') (by decide) (by decide) (by decide) (by decide)
  rw [Feigns, String.toList_intercalate, hgap.infix_intercalate_iff]
  simp only [List.mem_map, exists_exists_and_eq_and, Feigns]

theorem feigns_displayName {name nameVi : String} (h : Feigns (displayName name nameVi)) :
    Feigns name ∨ Feigns nameVi := by
  have hgap : Separates " (".toList delimiterFront :=
    separates_of_notMem (c := '(') (by decide) (by decide) (by decide) (by decide)
  rw [displayName] at h
  split at h
  · exact .inl h
  · rw [String.append_assoc, feigns_between_iff hgap,
      feigns_append_iff_left nameVi (by decide)] at h
    exact h

/-- What a title holds stands in one of the texts that are shown. -/
theorem exists_feigns_of_title {k : Kind} {category : Option String} {fields : k.Fields}
    (h : Feigns (foundTitle k category fields)) :
    ∃ text ∈ shownTexts k category fields, Feigns text := by
  cases k with
  | style | tone | outline =>
    rcases feigns_displayName h with hname | hname
    · exact ⟨_, by simp [shownTexts], hname⟩
    · exact ⟨_, by simp [shownTexts], hname⟩
  | industry => exact ⟨_, List.mem_cons_self, h⟩
  | blacklist =>
    have hgap : Separates ": ".toList delimiterFront :=
      separates_of_notMem (c := ':') (by decide) (by decide) (by decide) (by decide)
    simp only [foundTitle] at h
    split at h
    · exact ⟨_, by simp [shownTexts], h⟩
    · rw [feigns_between_iff hgap] at h
      rcases h with hkey | hdescription
      · exact ⟨_, by simp [shownTexts], hkey⟩
      · exact ⟨_, by simp [shownTexts], hdescription⟩

theorem exists_feigns_of_detail {k : Kind} {category : Option String} {fields : k.Fields}
    (h : Feigns (foundDetail k fields)) :
    ∃ text ∈ shownTexts k category fields, Feigns text := by
  have hlabelled {label : String} {items : List String} {shown : List String → String}
      (hlabel : '\n' ∉ label.toList) (h : Feigns (labelled label items shown)) :
      Feigns (shown items) := by
    rw [labelled] at h
    split at h
    · exact absurd h not_feigns_empty
    · exact (feigns_append_iff _ hlabel).1 h
  cases k with
  | style | tone => exact ⟨_, by simp [shownTexts, foundDetail], h⟩
  | outline =>
    obtain ⟨text, hmem, htext⟩ := (feigns_intercalate_iff _).1 (hlabelled (by decide) h)
    exact ⟨text, List.mem_append_right _ hmem, htext⟩
  | industry =>
    have hpreview := hlabelled (by decide) h
    rw [Text.preview, feigns_append_iff_left _ (by split <;> decide),
      feigns_intercalate_iff] at hpreview
    obtain ⟨text, hmem, htext⟩ := hpreview
    exact ⟨text, List.mem_cons_of_mem _ hmem, htext⟩
  | blacklist => exact absurd h not_feigns_empty

end Report

/-- The report of a search with its JSON, for every catalog and every query, cut at the first
    place of the delimiter:

    * it is the report without the JSON and the JSON on lines exactly if the query does not
      hold the delimiter, and neither does what is said of a match, title or detail, with the
      line feed behind it;
    * so it is if the delimiter, even without its line feed at the end, stands neither in the
      query nor in a text that is shown of a match. -/
theorem json_behind_first_delimiter_iff (c : Catalog) (query : String) :
    (Report.CutsAtFirst (c.search query) ↔ ¬ Report.delimiter.toList <:+: query.toList ∧
      ∀ k, ∀ m ∈ (c.search query).matched k,
        Report.Plain (Report.foundTitle k m.category m.entry.record.fields) ∧
        Report.Plain (Report.foundDetail k m.entry.record.fields)) ∧
    (¬ Report.Feigns query →
      (∀ k, ∀ m ∈ (c.search query).matched k,
        ∀ text ∈ Report.shownTexts k m.category m.entry.record.fields, ¬ Report.Feigns text) →
      Report.CutsAtFirst (c.search query)) := by
  have hiff := (Report.cutsAtFirst_iff (c.search query)).trans
    (Report.plain_findingText_iff c query)
  refine ⟨hiff, fun hquery hshown => hiff.2 ⟨fun hdelimiter => ?_, fun k m hm => ⟨?_, ?_⟩⟩⟩
  · exact hquery (Report.delimiterFront_infix hdelimiter)
  · refine Report.plain_of_not_feigns fun h => ?_
    obtain ⟨text, hmem, htext⟩ := Report.exists_feigns_of_title h
    exact hshown k m hm text hmem htext
  · refine Report.plain_of_not_feigns fun h => ?_
    obtain ⟨text, hmem, htext⟩ := Report.exists_feigns_of_detail h
    exact hshown k m hm text hmem htext

/-- A tone whose description is the delimiter, the line feed at its end aside. -/
def feigningTone : Entry .tone := ⟨(), ⟨⟨"", "b", "", "\n\n--- JSON Output ---"⟩, []⟩⟩

/-- The report of a plain tone is cut where the JSON starts; that of the other tone is not,
    since its line ends with a line feed. -/
theorem json_behind_first_delimiter_iff_sample :
    Report.CutsAtFirst ((Catalog.ofTone (toneCalled "a")).search "A") ∧
    ¬ Report.CutsAtFirst ((Catalog.ofTone feigningTone).search "B") := by
  have hshort {text : String} (h : text.toList.length ≤ 1) : ¬ Report.Feigns text := by
    intro hfeigns
    have hle := List.IsInfix.length_le hfeigns
    have hlength : 1 < Report.delimiterFront.length := by decide
    omega
  constructor
  · apply (json_behind_first_delimiter_iff _ _).2 (hshort (by decide))
    intro k m hm text htext
    apply hshort
    -- Nothing but the one tone is found.
    cases k with
    | tone =>
      obtain rfl := List.mem_singleton.1 hm
      have hlengths : ∀ shown ∈ ["a", "a", "a"], shown.toList.length ≤ 1 := by decide
      exact hlengths text htext
    | _ => cases hm
  · intro h
    have hmem : feigningTone.tagged ∈ ((Catalog.ofTone feigningTone).search "B").matched .tone :=
      List.mem_singleton.2 rfl
    exact (((json_behind_first_delimiter_iff _ _).1.1 h).2 .tone _ hmem).2 ⟨[], [], rfl⟩

/-- The query is repeated in the report as it is, so it can hold a delimiter of its own: the
    cut at the first one is in the middle of the quoted query. -/
theorem delimiter_in_query_cuts_early :
    ¬ Report.CutsAtFirst (Catalog.empty.search ("a" ++ Report.delimiter ++ "b")) := by
  rw [Report.cutsAtFirst_iff, Report.plain_findingText_iff]
  intro h
  exact h.1 ⟨"a".toList, "b".toList, by simp⟩

end Stylebook
