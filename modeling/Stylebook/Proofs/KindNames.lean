/-
  Stylebook.Proofs.KindNames

  Which texts name a collection. A name is trimmed, put into lower case and compared with
  ten words. Trimming takes white space off both ends and nothing else
  (`Text.exists_trim_eq`), and a word of small letters is the lower case of the texts that
  spell it letter by letter. So a collection is named by the spellings of its singular and
  its plural, with any white space around them (`Kind.NamedBy`), and a text that names none
  is handed back as it is (`kind_named_iff_spelled`).
-/

import Mathlib.Data.List.TakeWhile
import Stylebook.Proofs.Loading
import Stylebook.Proofs.Text.Letters

namespace Stylebook

namespace Text

/-! ## Trimming -/

/-- What trimming takes away is white space before and behind what it leaves. -/
theorem exists_trim_eq (cs : List Char) :
    ∃ before after, cs = before ++ trim cs ++ after ∧
      (∀ c ∈ before, isBlank c = true) ∧ ∀ c ∈ after, isBlank c = true := by
  have hstart : cs = cs.takeWhile isBlank ++ trimStart cs :=
    List.takeWhile_append_dropWhile.symm
  -- The end is trimmed as the start of the reversed text.
  have hend (ds : List Char) : ds = trimEnd ds ++ (ds.reverse.takeWhile isBlank).reverse := by
    rw [trimEnd, trimStart, ← List.reverse_append, List.takeWhile_append_dropWhile,
      List.reverse_reverse]
  refine ⟨cs.takeWhile isBlank, ((trimStart cs).reverse.takeWhile isBlank).reverse, ?_, ?_, ?_⟩
  · rw [trim, List.append_assoc, ← hend, ← hstart]
  · intro c hc
    exact List.mem_takeWhile_imp hc
  · intro c hc
    exact List.mem_takeWhile_imp (List.mem_reverse.1 hc)

theorem trimStart_append {before : List Char} (cs : List Char)
    (hbefore : ∀ c ∈ before, isBlank c = true) : trimStart (before ++ cs) = trimStart cs :=
  List.dropWhile_append_of_pos hbefore

/-- Nothing is taken away in front of a text without white space. -/
theorem trimStart_append_of_not_blank {cs : List Char} (rest : List Char) (hne : cs ≠ [])
    (hcs : ∀ c ∈ cs, isBlank c = false) : trimStart (cs ++ rest) = cs ++ rest := by
  cases cs with
  | nil => exact absurd rfl hne
  | cons c cs =>
    have hc : ¬ isBlank c = true := by
      rw [hcs c List.mem_cons_self]
      decide
    exact List.dropWhile_cons_of_neg hc

/-- A text without white space is what trimming leaves of it between white space. -/
theorem trim_append_append {before cs after : List Char} (hne : cs ≠ [])
    (hbefore : ∀ c ∈ before, isBlank c = true) (hcs : ∀ c ∈ cs, isBlank c = false)
    (hafter : ∀ c ∈ after, isBlank c = true) : trim (before ++ cs ++ after) = cs := by
  have hstart : trimStart (before ++ cs ++ after) = cs ++ after := by
    rw [List.append_assoc, trimStart_append _ hbefore, trimStart_append_of_not_blank _ hne hcs]
  have hend : trimStart (cs ++ after).reverse = cs.reverse := by
    rw [List.reverse_append, trimStart_append _ fun c hc => hafter c (List.mem_reverse.1 hc)]
    have hne' : cs.reverse ≠ [] := by simpa using hne
    have hself := trimStart_append_of_not_blank [] hne' fun c hc => hcs c (List.mem_reverse.1 hc)
    rwa [List.append_nil] at hself
  rw [trim, hstart, trimEnd, hend, List.reverse_reverse]

end Text

namespace Kind

open Text (isBlank Spells)

/-! ## Names -/

/-- The two names of a collection. -/
def names (k : Kind) : List String := [k.singular, k.plural]

/-- A text names a collection: it spells one of the names, and nothing but white space stands
    around that. -/
def NamedBy (k : Kind) (s : String) : Prop :=
  ∃ before word after : List Char, s.toList = before ++ word ++ after ∧
    (∀ c ∈ before, isBlank c = true) ∧ (∀ c ∈ after, isBlank c = true) ∧
      ∃ name ∈ k.names, Spells name.toList word

/-- Names consist of small letters. -/
theorem isLower_of_mem_names {k : Kind} {name : String} (h : name ∈ k.names) :
    name.toList ≠ [] ∧ ∀ a ∈ name.toList, a.isLower = true := by
  have hnames : ∀ i ∈ all, ∀ n ∈ i.names, n.toList ≠ [] ∧ n.toList.all Char.isLower = true := by
    decide
  exact (hnames k k.mem_all name h).imp_right List.all_eq_true.1

/-- Only the names of the blacklist have a k. -/
theorem eq_blacklist_of_mem_names {k : Kind} {name : String} (h : name ∈ k.names)
    (hk : 'k' ∈ name.toList) : k = .blacklist := by
  have hnames : ∀ i ∈ all, ∀ n ∈ i.names, 'k' ∈ n.toList → i = .blacklist := by
    decide
  exact hnames k k.mem_all name h hk

/-- No name is that of two collections. -/
theorem eq_of_mem_names {j k : Kind} {name : String} (hj : name ∈ j.names) (hk : name ∈ k.names) :
    j = k := by
  have hnames : ∀ i ∈ all, ∀ l ∈ all, ∀ n ∈ i.names, n ∈ l.names → i = l := by
    decide
  exact hnames j j.mem_all k k.mem_all name hj hk

theorem isNamed_iff {word : List Char} {k : Kind} :
    isNamed word k = true ↔ ∃ name ∈ k.names, word = name.toList := by
  rw [isNamed, Bool.or_eq_true, beq_iff_eq, beq_iff_eq, names]
  simp

theorem ofName?_eq_some_iff {s : String} {k : Kind} :
    ofName? s = some k ↔ ∃ name ∈ k.names, Text.lower (Text.trim s.toList) = name.toList := by
  rw [ofName?, ← isNamed_iff]
  constructor
  · exact List.find?_some
  · intro hk
    -- Something is found, and it has the same name.
    cases hfound : all.find? (isNamed (Text.lower (Text.trim s.toList))) with
    | none => exact absurd hk (List.find?_eq_none.1 hfound k k.mem_all)
    | some j =>
      obtain ⟨name, hname, hword⟩ := isNamed_iff.1 (List.find?_some hfound)
      obtain ⟨name', hname', hword'⟩ := isNamed_iff.1 hk
      have hsame : name = name' := String.toList_inj.1 (hword.symm.trans hword')
      subst hsame
      rw [eq_of_mem_names hname hname']

/-- A spelling of a word of small letters, with white space around it, is trimmed and put
    into lower case to that word; and only such a text is. -/
theorem lower_trim_eq_iff {word cs : List Char} (hne : word ≠ [])
    (hword : ∀ a ∈ word, a.isLower = true) :
    Text.lower (Text.trim cs) = word ↔
      ∃ before spelled after, cs = before ++ spelled ++ after ∧
        (∀ c ∈ before, isBlank c = true) ∧ (∀ c ∈ after, isBlank c = true) ∧
          Spells word spelled := by
  constructor
  · intro h
    obtain ⟨before, after, hcs, hbefore, hafter⟩ := Text.exists_trim_eq cs
    exact ⟨before, Text.trim cs, after, hcs, hbefore, hafter,
      (Text.lower_eq_iff_spells hword).1 h⟩
  · rintro ⟨before, spelled, after, rfl, hbefore, hafter, hspells⟩
    have hblank : ∀ c ∈ spelled, isBlank c = false := by
      intro c hc
      obtain ⟨a, ha, hletter⟩ := exists_mem_of_forall₂ hspells c hc
      exact (hletter.blank_and_alpha (hword a ha)).1
    have hnonempty : spelled ≠ [] := by
      rintro rfl
      exact hne (List.forall₂_nil_right_iff.1 hspells)
    rw [Text.trim_append_append hnonempty hbefore hblank hafter]
    exact (Text.lower_eq_iff_spells hword).2 hspells

theorem ofName?_eq_some_iff_namedBy {s : String} {k : Kind} :
    ofName? s = some k ↔ k.NamedBy s := by
  rw [ofName?_eq_some_iff]
  constructor
  · rintro ⟨name, hname, hlower⟩
    obtain ⟨hne, hletters⟩ := isLower_of_mem_names hname
    obtain ⟨before, word, after, hs, hbefore, hafter, hspells⟩ :=
      (lower_trim_eq_iff hne hletters).1 hlower
    exact ⟨before, word, after, hs, hbefore, hafter, name, hname, hspells⟩
  · rintro ⟨before, word, after, hs, hbefore, hafter, name, hname, hspells⟩
    obtain ⟨hne, hletters⟩ := isLower_of_mem_names hname
    exact ⟨name, hname,
      (lower_trim_eq_iff hne hletters).2 ⟨before, word, after, hs, hbefore, hafter, hspells⟩⟩

/-- What stands in a text that names a collection: white space, ASCII letters, and the Kelvin
    sign only for the blacklist. -/
theorem NamedBy.chars {k : Kind} {s : String} (h : k.NamedBy s) :
    ∀ c ∈ s.toList, isBlank c = true ∨ c.isAlpha = true ∨
      c = Text.kelvinSign ∧ k = .blacklist := by
  obtain ⟨before, word, after, hs, hbefore, hafter, name, hname, hspells⟩ := h
  intro c hc
  rw [hs, List.mem_append, List.mem_append] at hc
  rcases hc with (hc | hc) | hc
  · exact .inl (hbefore c hc)
  · right
    obtain ⟨a, ha, hletter⟩ := exists_mem_of_forall₂ hspells c hc
    have hlower := (isLower_of_mem_names hname).2 a ha
    rcases (hletter.blank_and_alpha hlower).2 with halpha | ⟨rfl, hkelvin⟩
    · exact .inl halpha
    · exact .inr ⟨hkelvin, eq_blacklist_of_mem_names hname ha⟩
  · exact .inl (hafter c hc)

end Kind

/-- The names that are understood, for every text:

    * a text is read as a collection exactly if it spells the collection's singular or
      plural, letter by letter and in any case, with nothing but white space around it;
    * a text that names no collection is refused, and the complaint holds it as it was
      given;
    * besides white space around it, a text that is understood holds ASCII letters only,
      and in a name of the blacklist the Kelvin sign. -/
theorem kind_named_iff_spelled (s : String) :
    (∀ k, Kind.ofName s = .ok k ↔ k.NamedBy s) ∧
    (∀ u, Kind.ofName s = .error u ↔ u = ⟨s⟩ ∧ ∀ k : Kind, ¬ k.NamedBy s) ∧
    ∀ k : Kind, Kind.ofName s = .ok k → ∀ c ∈ s.toList,
      Text.isBlank c = true ∨ c.isAlpha = true ∨ c = Text.kelvinSign ∧ k = .blacklist := by
  have hok (k : Kind) : Kind.ofName s = .ok k ↔ k.NamedBy s := by
    rw [← Kind.ofName?_eq_some_iff_namedBy, Kind.ofName]
    cases Kind.ofName? s <;> simp
  refine ⟨hok, ?_, fun k hk => ((hok k).1 hk).chars⟩
  intro u
  simp only [← hok]
  rw [Kind.ofName]
  cases Kind.ofName? s with
  | none => simp [eq_comm]
  | some k => simp

/-- Capitals, the Kelvin sign and white space beyond ASCII still name the blacklist. With a
    long s in it a text names nothing, and the complaint holds it untrimmed. -/
theorem kind_named_iff_spelled_sample :
    Kind.ofName "\u3000BLAC\u212AlistS\u0085" = .ok .blacklist ∧
      (∀ c ∈ "\u3000BLAC\u212AlistS\u0085".toList,
        Text.isBlank c = true ∨ c.isAlpha = true ∨ c = Text.kelvinSign) ∧
      Kind.ofName " \u017Ftyle" = .error ⟨" \u017Ftyle"⟩ ∧
        ∀ k : Kind, ¬ k.NamedBy " \u017Ftyle" := by
  obtain ⟨hok, -, hchars⟩ := kind_named_iff_spelled "\u3000BLAC\u212AlistS\u0085"
  obtain ⟨-, herror, -⟩ := kind_named_iff_spelled " \u017Ftyle"
  have hnamed : Kind.ofName "\u3000BLAC\u212AlistS\u0085" = .ok .blacklist := by
    refine (hok .blacklist).2 ⟨['\u3000'], "BLAC\u212AlistS".toList, ['\u0085'], by decide,
      List.forall_mem_singleton.2 (by decide), List.forall_mem_singleton.2 (by decide),
      "blacklists", by decide, ?_⟩
    show List.Forall₂ _ _ _
    decide
  have hrefused : Kind.ofName " \u017Ftyle" = .error ⟨" \u017Ftyle"⟩ := by decide
  refine ⟨hnamed, fun c hc => ?_, hrefused, ((herror _).1 hrefused).2⟩
  exact (hchars .blacklist hnamed c hc).imp_right (Or.imp_right And.left)

end Stylebook
