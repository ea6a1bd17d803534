/-
  Stylebook.Proofs.Json.PhraseAccepted

  What the readers accept is in the grammar: each takes a text of the grammar off the front of
  the text that it reads. For rows that is shown of any items for which it holds already, so
  for values it follows by induction on the levels that are left (`takesItems_value`). A text
  that is read to its end is a phrase of as many levels as were allowed (`phrase_of_value`).
-/

import Stylebook.Proofs.Json.PhraseReading

namespace Stylebook.Json

variable {s rest : List Char}

/-! ## Numbers -/

theorem exists_isFraction {ds : List Char} (h : fractionPart s = .ok (ds, rest)) :
    ∃ f, IsFraction f ∧ s = f ++ rest := by
  rcases fractionPart_eq_ok_iff.1 h with ⟨-, rfl, -⟩ | ⟨s', rfl, hrow⟩
  · exact ⟨[], .inl rfl, rfl⟩
  · obtain ⟨hne, hds, rfl, -⟩ := digitRow_eq_ok_iff.1 hrow
    exact ⟨'.' :: ds, .inr ⟨ds, rfl, hne, hds⟩, rfl⟩

theorem exists_sign_append (s : List Char) :
    ∃ sign, (sign = [] ∨ sign = ['+'] ∨ sign = ['-']) ∧ s = sign ++ (exponentSign s).2 := by
  unfold exponentSign
  split
  · exact ⟨['+'], .inr (.inl rfl), rfl⟩
  · exact ⟨['-'], .inr (.inr rfl), rfl⟩
  · exact ⟨[], .inl rfl, rfl⟩

theorem exists_isExponent {x : Option (Bool × List Char)} (h : exponentPart s = .ok (x, rest)) :
    ∃ e, IsExponent e ∧ s = e ++ rest := by
  rcases exponentPart_eq_ok_iff.1 h with ⟨-, rfl, -⟩ | ⟨c, s', ds, rfl, hc, -, hrow⟩
  · exact ⟨[], .inl rfl, rfl⟩
  · obtain ⟨hne, hds, hrest, -⟩ := digitRow_eq_ok_iff.1 hrow
    obtain ⟨sign, hsign, hs'⟩ := exists_sign_append s'
    refine ⟨c :: (sign ++ ds), .inr ⟨c, sign, ds, rfl, hc, hsign, hne, hds⟩, ?_⟩
    rw [List.cons_append, List.append_assoc, ← hrest, ← hs']

theorem exists_unsigned {negative : Bool} {v : Value} (h : number negative s = .ok (v, rest)) :
    ∃ u, Unsigned u ∧ s = u ++ rest := by
  obtain ⟨n, x, hn, -, -⟩ := number_eq_ok_iff.1 h
  obtain ⟨whole, s₁, fraction, s₂, exponent, hw, hf, he, -⟩ := numeral_eq_ok_iff.1 hn
  obtain ⟨hwhole, rfl, -⟩ := wholePart_eq_ok_iff.1 hw
  obtain ⟨f, hfraction, rfl⟩ := exists_isFraction hf
  obtain ⟨e, hexponent, rfl⟩ := exists_isExponent he
  refine ⟨whole ++ (f ++ e), ⟨hwhole, hfraction, hexponent⟩, ?_⟩
  rw [List.append_assoc, List.append_assoc]

/-! ## Strings -/

/-- An escape may stand in front of any quotation. -/
theorem exists_escape_append {e : Char} (h : escape s = .ok (e, rest)) :
    ∃ q, s = q ++ rest ∧ ∀ u, Quotation u → Quotation ('\\' :: (q ++ u)) := by
  have hletter {c : Char} (hc : c ∈ escapeLetters) :
      ∃ q, c :: rest = q ++ rest ∧ ∀ u, Quotation u → Quotation ('\\' :: (q ++ u)) :=
    ⟨[c], rfl, fun u hu => .letter hc hu⟩
  rw [escape.eq_def] at h
  split at h
  case h_10 s' =>
    obtain ⟨n, s₁, hn, -, hrest⟩ := numberedEscape_eq_ok_iff.1 h
    obtain ⟨a, b, c, d, rfl, hcode⟩ := hexCode_eq_ok_iff.1 hn
    rcases hrest with ⟨-, hsecond⟩ | ⟨-, -, rfl⟩
    · obtain ⟨s₂, m, rfl, hm, -⟩ := secondHalf_eq_ok_iff.1 hsecond
      obtain ⟨a', b', c', d', rfl, hcode'⟩ := hexCode_eq_ok_iff.1 hm
      exact ⟨['u', a, b, c, d, '\\', 'u', a', b', c', d'], rfl,
        fun u hu => .code hcode (.code hcode' hu)⟩
    · exact ⟨['u', a, b, c, d], rfl, fun u hu => .code hcode hu⟩
  all_goals cases h
  all_goals exact hletter (by decide)

theorem exists_quotation_of_repeats {cs : List Char} (h : Repeats quotedStep s cs rest) :
    ∃ q, Quotation q ∧ s = q ++ '"' :: rest := by
  induction h with
  | stop hs =>
    rcases quotedStep_eq_ok_iff.1 hs with ⟨-, rfl⟩ | ⟨e, s', ⟨⟩, -⟩ | ⟨c, ⟨⟩, -⟩
    exact ⟨[], .nil, rfl⟩
  | next hs _ ih =>
    obtain ⟨q, hq, rfl⟩ := ih
    rcases quotedStep_eq_ok_iff.1 hs with ⟨⟨⟩, -⟩ | ⟨e, s', -, rfl, he⟩ | ⟨c, -, rfl, hc⟩
    · obtain ⟨q', rfl, hq'⟩ := exists_escape_append he
      exact ⟨'\\' :: (q' ++ q), hq' q hq, by rw [List.cons_append, List.append_assoc]⟩
    · exact ⟨c :: q, .plain hc.1 hc.2.1 hc.2.2 hq, rfl⟩

theorem exists_quotation {text : String} (h : quoted s = .ok (text, rest)) :
    ∃ q, Quotation q ∧ s = q ++ '"' :: rest :=
  exists_quotation_of_repeats (quoted_eq_ok_iff.1 h)

/-! ## Rows -/

theorem exists_gap_append (s : List Char) : ∃ gap, Gap gap ∧ s = gap ++ skipGap s :=
  ⟨s.takeWhile isGap, fun _ hc => List.mem_takeWhile_imp hc, List.takeWhile_append_dropWhile.symm⟩

section Row

variable {α : Type} {close : Closing} {item : Reader α} {P : List Char → Prop}

/-- The reader of a row's items takes one with a property off the front of the text. Blank space
    around it keeps the property. -/
structure TakesItems (item : Reader α) (P : List Char → Prop) : Prop where
  takes : ∀ {s a rest}, item s = .ok (a, rest) → ∃ p, P p ∧ s = p ++ rest
  blank : ∀ {before p after}, Gap before → Gap after → P p → P (before ++ (p ++ after))

/-- What stands behind the first item of a row. -/
theorem exists_items_of_repeats (hitem : TakesItems item P) {as : List α}
    (h : Repeats (rowStep close item) s as rest) :
    ∃ (gap : List Char) (items : List (List Char)), Gap gap ∧ (∀ t ∈ items, P t) ∧
      s = gap ++ (items.flatMap (',' :: ·) ++ close.bracket :: rest) := by
  induction h with
  | @stop s rest hs =>
    obtain ⟨gap, hgap, hs'⟩ := exists_gap_append s
    rcases rowStep_eq_ok_iff.1 hs with ⟨-, hend⟩ | ⟨s', c, t, b, ⟨⟩, -⟩
    exact ⟨gap, [], hgap, nofun, by rw [List.flatMap_nil, List.nil_append, ← hend, ← hs']⟩
  | @next s a mid as rest hs _ ih =>
    obtain ⟨after, items, hafter, hitems, rfl⟩ := ih
    rcases rowStep_eq_ok_iff.1 hs with ⟨⟨⟩, -⟩ | ⟨s', c, t, b, -, hcomma, hnext, -, hb⟩
    obtain ⟨gap, hgap, hs'⟩ := exists_gap_append s
    obtain ⟨before, hbefore, hbefore'⟩ := exists_gap_append s'
    obtain ⟨p, hp, htext⟩ := hitem.takes hb
    refine ⟨gap, (before ++ (p ++ after)) :: items, hgap, ?_, ?_⟩
    · exact List.forall_mem_cons.2 ⟨hitem.blank hbefore hafter hp, hitems⟩
    · rw [hs', hcomma, hbefore', hnext, htext]
      simp only [List.flatMap_cons, List.cons_append, List.append_assoc]

/-- A row that is read is empty, or it is a row of items. -/
theorem exists_rowText_of_row (htakes : TakesFront item) (hitem : TakesItems item P)
    {as : List α} (h : row close item s = .ok (as, rest)) :
    (∃ gap, Gap gap ∧ s = gap ++ [close.bracket] ++ rest) ∨
      ∃ t items, (∀ t' ∈ t :: items, P t') ∧ s = rowText close t items ++ rest := by
  obtain ⟨gap, hgap, hs⟩ := exists_gap_append s
  rcases (row_eq_ok_iff htakes).1 h with
    ⟨-, hend⟩ | ⟨c, t, a, mid, others, -, hfirst, -, ha, hothers⟩
  · exact .inl ⟨gap, hgap, by rw [List.append_assoc, List.singleton_append, ← hend, ← hs]⟩
  · obtain ⟨after, items, hafter, hitems, rfl⟩ := exists_items_of_repeats hitem hothers
    obtain ⟨p, hp, htext⟩ := hitem.takes ha
    refine .inr ⟨gap ++ (p ++ after), items, ?_, ?_⟩
    · exact List.forall_mem_cons.2 ⟨hitem.blank hgap hafter hp, hitems⟩
    · rw [hs, hfirst, htext, rowText]
      simp only [List.append_assoc, List.singleton_append]

end Row

/-! ## Values -/

/-- The text of a member whose value has at most so many levels. -/
def IsMember (n : Nat) (t : List Char) : Prop := ∃ m : MemberText, t = m.text ∧ Phrase n m.value

theorem takesItems_member {depth : Nat} (h : TakesItems (value depth) (Phrase depth)) :
    TakesItems (member (value depth)) (IsMember depth) where
  takes := by
    intro s m rest hm
    obtain ⟨s', mid, t, rfl, hkey, hcolon, hv⟩ := member_eq_ok_iff.1 hm
    obtain ⟨q, hq, rfl⟩ := exists_quotation hkey
    obtain ⟨between, hbetween, hmid⟩ := exists_gap_append mid
    obtain ⟨p, hp, rfl⟩ := h.takes hv
    refine ⟨_, ⟨⟨[], q, between, p, gap_nil, hq, hbetween⟩, rfl, hp⟩, ?_⟩
    rw [hmid, hcolon]
    simp only [MemberText.text, textOfMember, List.nil_append, List.cons_append, List.append_assoc]
  blank := by
    rintro before _ after hbefore hafter ⟨m, rfl, hm⟩
    refine ⟨⟨before ++ m.before, m.key, m.between, m.value ++ after, ?_, m.quotation_key,
      m.gap_between⟩, ?_, ?_⟩
    · intro c hc
      exact (List.mem_append.1 hc).elim (hbefore c) (m.gap_before c)
    · simp only [MemberText.text, textOfMember, List.cons_append, List.append_assoc]
    · exact .blank gap_nil hafter hm

/-- Members are the texts of their parts. -/
theorem exists_map_text {n : Nat} {items : List (List Char)} (h : ∀ t ∈ items, IsMember n t) :
    ∃ ms : List MemberText, items = ms.map MemberText.text ∧ ∀ m ∈ ms, Phrase n m.value := by
  obtain ⟨ms, hms, hphrases⟩ := exists_forall₂_and h
  refine ⟨ms, ?_, hphrases⟩
  rwa [← List.forall₂_eq_eq_eq, List.forall₂_map_right_iff]

/-- What is read of a value, from its first character on, is a phrase. -/
theorem exists_phrase_of_starts {depth : Nat} {array object : Reader Value} {v : Value}
    (harray : ∀ {s v rest}, array s = .ok (v, rest) → ∃ p, Phrase depth ('[' :: p) ∧ s = p ++ rest)
    (hobject : ∀ {s v rest}, object s = .ok (v, rest) →
      ∃ p, Phrase depth ('\x7b' :: p) ∧ s = p ++ rest)
    (h : Starts array object s v rest) : ∃ p, Phrase depth p ∧ s = p ++ rest := by
  cases h with
  | null => exact ⟨_, .null, rfl⟩
  | yes => exact ⟨_, .yes, rfl⟩
  | no => exact ⟨_, .no, rfl⟩
  | string hquoted =>
    obtain ⟨q, hq, rfl⟩ := exists_quotation hquoted
    exact ⟨_, .string hq, by rw [List.cons_append, List.append_assoc, List.singleton_append]⟩
  | array h =>
    obtain ⟨p, hp, rfl⟩ := harray h
    exact ⟨_, hp, rfl⟩
  | object h =>
    obtain ⟨p, hp, rfl⟩ := hobject h
    exact ⟨_, hp, rfl⟩
  | negative h =>
    obtain ⟨u, hu, rfl⟩ := exists_unsigned h
    exact ⟨_, .negative hu, rfl⟩
  | number _ h =>
    obtain ⟨u, hu, hs⟩ := exists_unsigned h
    exact ⟨u, .number hu, hs⟩

/-- A reader of values takes a phrase of as many levels as it allows. -/
theorem takesItems_value (depth : Nat) : TakesItems (value depth) (Phrase depth) := by
  refine ⟨fun {s v rest} h => ?_, .blank⟩
  induction depth using Nat.strongRecOn generalizing s v rest with
  | ind depth ih =>
    obtain ⟨array, object, hvalue, hrest⟩ := value_iff_starts depth
    -- Inside a bracket there is one level less.
    have harray {s v rest} (h : array s = .ok (v, rest)) :
        ∃ p, Phrase depth ('[' :: p) ∧ s = p ++ rest := by
      obtain ⟨d, items, rfl, -, hrow⟩ := (hrest s v rest).1.1 h
      have hitem : TakesItems (value d) (Phrase d) := ⟨ih d (Nat.lt_succ_self d), .blank⟩
      rcases exists_rowText_of_row (value_takesFront d) hitem hrow with
        ⟨gap, hgap, hs⟩ | ⟨t, items, hitems, hs⟩
      · exact ⟨_, .emptyArray hgap, hs⟩
      · exact ⟨_, .array hitems, hs⟩
    have hobject {s v rest} (h : object s = .ok (v, rest)) :
        ∃ p, Phrase depth ('\x7b' :: p) ∧ s = p ++ rest := by
      obtain ⟨d, members, rfl, -, hrow⟩ := (hrest s v rest).2.1 h
      have hitem : TakesItems (value d) (Phrase d) := ⟨ih d (Nat.lt_succ_self d), .blank⟩
      rcases exists_rowText_of_row (member_takesFront (value_takesFront d))
          (takesItems_member hitem) hrow with ⟨gap, hgap, hs⟩ | ⟨t, items, hitems, hs⟩
      · exact ⟨_, .emptyObject hgap, hs⟩
      · rw [List.forall_mem_cons] at hitems
        obtain ⟨⟨m, rfl, hm⟩, hothers⟩ := hitems
        obtain ⟨ms, rfl, hms⟩ := exists_map_text hothers
        exact ⟨_, .object (List.forall_mem_cons.2 ⟨hm, hms⟩), hs⟩
    obtain ⟨gap, hgap, hs⟩ := exists_gap_append s
    obtain ⟨p, hp, hfirst⟩ := exists_phrase_of_starts harray hobject ((hvalue s v rest).1 h)
    refine ⟨gap ++ (p ++ []), .blank hgap gap_nil hp, ?_⟩
    rw [hs, hfirst, List.append_nil, List.append_assoc]

/-- A text that is read as a value is a phrase of as many levels as were allowed. -/
theorem phrase_of_value {depth : Nat} {v : Value} (h : value depth s = .ok (v, rest))
    (hend : skipGap rest = []) : Phrase depth s := by
  obtain ⟨p, hp, rfl⟩ := (takesItems_value depth).takes h
  exact .blank gap_nil (skipGap_eq_nil_iff.1 hend) hp

end Stylebook.Json
