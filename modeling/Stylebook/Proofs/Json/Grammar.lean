/-
  Stylebook.Proofs.Json.Grammar

  What the readers of rows, members and values accept, each said by the text it
  accepts. All that is known of reading a value is derived from these descriptions
  by induction on the levels of nesting that are left:

    * `value_takesFront` — a value is taken off the front of the text;
    * `value_append` — what follows a value does not matter, a number apart;
    * `value_depth_le` — a value that was read is not nested too deep;
    * `value_of_depth_le` — how many levels are allowed does not matter as long as
      they suffice.
-/

import Mathlib.Data.List.Forall2
import Stylebook.Json.Read
import Stylebook.Proofs.Json.Numeral
import Stylebook.Proofs.Json.Quotation
import Stylebook.Proofs.Json.Tree

namespace Stylebook.Json

/-! ## Rows of items -/

section Row

variable {α : Type} {close : Closing} {item : Reader α} {s rest : List Char}

/-- Behind an item stands the end of the row, or a comma and another item. -/
theorem rowStep_eq_ok_iff {a : Option α} :
    rowStep close item s = .ok (a, rest) ↔
      (a = none ∧ skipGap s = close.bracket :: rest) ∨
      ∃ s' c t b, a = some b ∧ skipGap s = ',' :: s' ∧ skipGap s' = c :: t ∧
        c ≠ close.bracket ∧ item (c :: t) = .ok (b, rest) := by
  rw [rowStep]
  constructor
  · intro h
    split at h
    · cases h
    next c s' hgap =>
    split at h
    · next hclose =>
      cases h
      exact .inl ⟨rfl, hclose ▸ hgap⟩
    split at h
    · next hcomma =>
      -- Behind a comma the row may neither end nor close.
      split at h
      · cases h
      next d t hnext =>
      split at h
      · cases h
      next hd =>
      split at h
      · cases h
      · next hb =>
        cases h
        exact .inr ⟨s', d, t, _, rfl, hcomma ▸ hgap, hnext, hd, hb⟩
    · cases h
  · rintro (⟨rfl, hgap⟩ | ⟨s', c, t, b, rfl, hgap, hnext, hc, hb⟩)
    · simp only [hgap, if_true]
    · have hcomma : ',' ≠ close.bracket := Ne.symm close.bracket_ne_comma
      simp only [hgap, if_neg hcomma, if_true, hnext, if_neg hc, hb]

theorem rowStep_takesFront (hitem : TakesFront item) : TakesFront (rowStep close item) := by
  intro s a rest h
  rcases rowStep_eq_ok_iff.1 h with ⟨-, hgap⟩ | ⟨s', c, t, b, -, hgap, hnext, -, hb⟩
  · exact (List.suffix_cons _ _).trans (hgap ▸ skipGap_suffix s)
  · have hs' : s' <:+ s := (List.suffix_cons _ _).trans (hgap ▸ skipGap_suffix s)
    exact ((hitem hb).trans (hnext ▸ skipGap_suffix s')).trans hs'

theorem rowStep_shortens (hitem : TakesFront item) : Shortens (rowStep close item) := by
  intro s a rest h
  rcases rowStep_eq_ok_iff.1 h with ⟨h', -⟩ | ⟨s', c, t, b, -, hgap, hnext, -, hb⟩
  · cases h'
  · have h₁ := (skipGap_suffix s).length_le
    have h₂ := (skipGap_suffix s').length_le
    have h₃ := (hitem hb).length_le
    rw [hgap, List.length_cons] at h₁
    rw [hnext] at h₂
    omega

theorem rowStep_nil (x : Option α × List Char) : rowStep close item [] ≠ .ok x := by
  intro h
  cases h

/-- A row is its end, or an item and what the steps behind it read. -/
theorem row_eq_ok_iff (hitem : TakesFront item) {as : List α} :
    row close item s = .ok (as, rest) ↔
      (as = [] ∧ skipGap s = close.bracket :: rest) ∨
      ∃ c t a mid others, as = a :: others ∧ skipGap s = c :: t ∧ c ≠ close.bracket ∧
        item (c :: t) = .ok (a, mid) ∧ Repeats (rowStep close item) mid others rest := by
  have hmany : ∀ {mid others}, many (rowStep close item) mid = .ok (others, rest) ↔
      Repeats (rowStep close item) mid others rest := many_eq_ok_iff (rowStep_shortens hitem)
  rw [row]
  constructor
  · intro h
    split at h
    · cases h
    next c t hgap =>
    split at h
    · next hclose =>
      cases h
      exact .inl ⟨rfl, hclose ▸ hgap⟩
    next hclose =>
    split at h
    · cases h
    next a mid hfirst =>
    split at h
    · cases h
    · next others rest' hothers =>
      cases h
      exact .inr ⟨c, t, a, mid, others, rfl, hgap, hclose, hfirst, hmany.1 hothers⟩
  · rintro (⟨rfl, hgap⟩ | ⟨c, t, a, mid, others, rfl, hgap, hclose, hfirst, hothers⟩)
    · simp only [hgap, if_true]
    · simp only [hgap, if_neg hclose, hfirst, hmany.2 hothers]

theorem row_takesFront (hitem : TakesFront item) : TakesFront (row close item) := by
  intro s as rest h
  rcases (row_eq_ok_iff hitem).1 h with
    ⟨-, hgap⟩ | ⟨c, t, a, mid, others, -, hgap, -, hfirst, hothers⟩
  · exact (List.suffix_cons _ _).trans (hgap ▸ skipGap_suffix s)
  · have hmid := hothers.suffix (rowStep_takesFront hitem)
    exact (hmid.trans (hitem hfirst)).trans (hgap ▸ skipGap_suffix s)

theorem rowStep_append (hitem : ExtendsAtStop item) (t : List Char) {a : Option α}
    (h : rowStep close item s = .ok (a, rest)) (hend : a = none ∨ rest ≠ []) :
    rowStep close item (s ++ t) = .ok (a, rest ++ t) := by
  refine rowStep_eq_ok_iff.2 ?_
  rcases rowStep_eq_ok_iff.1 h with ⟨rfl, hgap⟩ | ⟨s', c, u, b, rfl, hgap, hnext, hc, hb⟩
  · exact .inl ⟨rfl, skipGap_append_of_cons t hgap⟩
  · have hrest : rest ≠ [] := hend.resolve_left (Option.some_ne_none b)
    exact .inr ⟨s' ++ t, c, u ++ t, b, rfl, skipGap_append_of_cons t hgap,
      skipGap_append_of_cons t hnext, hc, hitem hb (.inl hrest)⟩

/-- A row ends at its bracket, so what follows it does not matter. -/
theorem row_extends (htakes : TakesFront item) (hitem : ExtendsAtStop item) :
    Extends (row close item) := by
  intro s as rest t h
  refine (row_eq_ok_iff htakes).2 ?_
  rcases (row_eq_ok_iff htakes).1 h with
    ⟨rfl, hgap⟩ | ⟨c, u, a, mid, others, rfl, hgap, hc, hfirst, hothers⟩
  · exact .inl ⟨rfl, skipGap_append_of_cons t hgap⟩
  · have hmid : mid ≠ [] := hothers.ne_nil rowStep_nil
    exact .inr ⟨c, u ++ t, a, mid ++ t, others, rfl, skipGap_append_of_cons t hgap, hc,
      hitem hfirst (.inl hmid), hothers.append t rowStep_nil (rowStep_append hitem t)⟩

/-- What holds of every item that the reader of items gives holds of a row. -/
theorem row_forall {P : α → Prop} (htakes : TakesFront item)
    (hitem : ∀ {s a rest}, item s = .ok (a, rest) → P a) {as : List α}
    (h : row close item s = .ok (as, rest)) : ∀ a ∈ as, P a := by
  -- The items behind the first one, step by step.
  have hsteps : ∀ {s as rest}, Repeats (rowStep close item) s as rest → ∀ a ∈ as, P a := by
    intro s as rest h
    induction h with
    | stop => simp
    | next hs _ ih =>
      rcases rowStep_eq_ok_iff.1 hs with ⟨h', -⟩ | ⟨s', c, t, b, h', -, -, -, hb⟩
      · cases h'
      · cases h'
        exact List.forall_mem_cons.2 ⟨hitem hb, ih⟩
  rcases (row_eq_ok_iff htakes).1 h with
    ⟨rfl, -⟩ | ⟨c, t, a, mid, others, rfl, -, -, hfirst, hothers⟩
  · simp
  · exact List.forall_mem_cons.2 ⟨hitem hfirst, hsteps hothers⟩

/-- A row is read by another reader of items too, if that reads something related wherever an
    item of the row is read. -/
theorem exists_row_related {β : Type} {reader : Reader β} {P : α → Prop} {R : α → β → Prop}
    (htakes : TakesFront item) (htakes' : TakesFront reader)
    (hitem : ∀ {s a rest}, P a → item s = .ok (a, rest) → ∃ b, reader s = .ok (b, rest) ∧ R a b)
    {as : List α} (hall : ∀ a ∈ as, P a) (h : row close item s = .ok (as, rest)) :
    ∃ bs, row close reader s = .ok (bs, rest) ∧ List.Forall₂ R as bs := by
  -- The items behind the first one, step by step.
  have hsteps : ∀ {s as rest}, (∀ a ∈ as, P a) → Repeats (rowStep close item) s as rest →
      ∃ bs, Repeats (rowStep close reader) s bs rest ∧ List.Forall₂ R as bs := by
    intro s as rest hall h
    induction h with
    | stop hs =>
      rcases rowStep_eq_ok_iff.1 hs with ⟨-, hgap⟩ | ⟨s', c, t, b, h', -⟩
      · exact ⟨[], .stop (rowStep_eq_ok_iff.2 (.inl ⟨rfl, hgap⟩)), .nil⟩
      · cases h'
    | next hs _ ih =>
      rw [List.forall_mem_cons] at hall
      obtain ⟨bs, hbs, hrelated⟩ := ih hall.2
      rcases rowStep_eq_ok_iff.1 hs with ⟨h', -⟩ | ⟨s', c, t, a, h', hgap, hnext, hc, ha⟩
      · cases h'
      · cases h'
        obtain ⟨b, hb, hab⟩ := hitem hall.1 ha
        have hs' := rowStep_eq_ok_iff.2 (.inr ⟨s', c, t, b, rfl, hgap, hnext, hc, hb⟩)
        exact ⟨b :: bs, .next hs' hbs, .cons hab hrelated⟩
  rcases (row_eq_ok_iff htakes).1 h with
    ⟨rfl, hgap⟩ | ⟨c, t, a, mid, others, rfl, hgap, hc, hfirst, hothers⟩
  · exact ⟨[], (row_eq_ok_iff htakes').2 (.inl ⟨rfl, hgap⟩), .nil⟩
  · rw [List.forall_mem_cons] at hall
    obtain ⟨b, hb, hab⟩ := hitem hall.1 hfirst
    obtain ⟨bs, hbs, hrelated⟩ := hsteps hall.2 hothers
    exact ⟨b :: bs, (row_eq_ok_iff htakes').2 (.inr ⟨c, t, b, mid, bs, rfl, hgap, hc, hb, hbs⟩),
      .cons hab hrelated⟩

/-- A reader of items may be exchanged for one that reads the same items there. -/
theorem row_congr {item' : Reader α} {P : α → Prop} (htakes : TakesFront item)
    (htakes' : TakesFront item')
    (hitem : ∀ {s a rest}, P a → item s = .ok (a, rest) → item' s = .ok (a, rest))
    {as : List α} (hall : ∀ a ∈ as, P a) (h : row close item s = .ok (as, rest)) :
    row close item' s = .ok (as, rest) := by
  obtain ⟨bs, hrow, hrelated⟩ := exists_row_related (R := Eq) htakes htakes'
    (fun ha h => ⟨_, hitem ha h, rfl⟩) hall h
  rw [List.forall₂_eq_eq_eq] at hrelated
  rw [hrow, hrelated]

end Row

/-! ## Members -/

section Member

variable {item : Reader Value} {s rest : List Char}

theorem colon_eq_ok_iff {u : Unit} :
    colon s = .ok (u, rest) ↔ skipGap s = ':' :: rest := by
  rw [colon]
  constructor
  · intro h
    split at h
    · cases h
    · next t hgap =>
      cases h
      exact hgap
    · cases h
  · intro hgap
    simp only [hgap]

theorem member_eq_ok_iff {m : String × Value} :
    member item s = .ok (m, rest) ↔
      ∃ s' mid t, s = '"' :: s' ∧ quoted s' = .ok (m.1, mid) ∧ skipGap mid = ':' :: t ∧
        item t = .ok (m.2, rest) := by
  constructor
  · intro h
    rw [member.eq_def] at h
    split at h
    · next s' =>
      rcases hkey : quoted s' with f | ⟨key, mid⟩
      · rw [hkey] at h
        cases h
      rcases hcolon : colon mid with f | ⟨u, t⟩
      · simp only [hkey, hcolon, bind, Except.bind, reduceCtorEq] at h
      rcases hv : item t with f | ⟨v, rest'⟩
      · simp only [hkey, hcolon, hv, bind, Except.bind, reduceCtorEq] at h
      simp only [hkey, hcolon, hv, bind, Except.bind, pure, Except.pure] at h
      cases h
      exact ⟨s', mid, t, rfl, hkey, colon_eq_ok_iff.1 hcolon, hv⟩
    · cases h
  · rintro ⟨s', mid, t, rfl, hkey, hcolon, hv⟩
    have hcolon' : colon mid = .ok ((), t) := colon_eq_ok_iff.2 hcolon
    simp only [member, hkey, hcolon', hv, bind, Except.bind, pure, Except.pure]

theorem member_takesFront (hitem : TakesFront item) : TakesFront (member item) := by
  intro s m rest h
  obtain ⟨s', mid, t, rfl, hkey, hcolon, hv⟩ := member_eq_ok_iff.1 h
  have ht : t <:+ mid := (List.suffix_cons _ _).trans (hcolon ▸ skipGap_suffix mid)
  exact (((hitem hv).trans ht).trans (quoted_takesFront hkey)).trans (List.suffix_cons _ _)

theorem member_extends (hitem : ExtendsAtStop item) : ExtendsAtStop (member item) := by
  intro s m rest t h hstop
  obtain ⟨s', mid, u, rfl, hkey, hcolon, hv⟩ := member_eq_ok_iff.1 h
  exact member_eq_ok_iff.2 ⟨s' ++ t, mid ++ t, u ++ t, rfl, quoted_extends t hkey,
    skipGap_append_of_cons t hcolon, hitem hv hstop⟩

end Member

/-! ## Arrays and objects -/

theorem arrayRest_eq_ok_iff {item : Reader Value} {s rest : List Char} {v : Value} :
    arrayRest item s = .ok (v, rest) ↔
      ∃ items, v = .array items ∧ row .array item s = .ok (items, rest) := by
  rw [arrayRest]
  constructor
  · intro h
    split at h
    · cases h
    · next hrow =>
      cases h
      exact ⟨_, rfl, hrow⟩
  · rintro ⟨items, rfl, hrow⟩
    rw [hrow]

theorem objectRest_eq_ok_iff {item : Reader Value} {s rest : List Char} {v : Value} :
    objectRest item s = .ok (v, rest) ↔
      ∃ members, v = .object members ∧ row .object (member item) s = .ok (members, rest) := by
  rw [objectRest]
  constructor
  · intro h
    split at h
    · cases h
    · next hrow =>
      cases h
      exact ⟨_, rfl, hrow⟩
  · rintro ⟨members, rfl, hrow⟩
    rw [hrow]

/-! ## Values -/

/-- What a value reads as, by its first character. -/
inductive Starts (array object : Reader Value) : List Char → Value → List Char → Prop where
  | null {rest} : Starts array object (['n', 'u', 'l', 'l'] ++ rest) .null rest
  | yes {rest} : Starts array object (['t', 'r', 'u', 'e'] ++ rest) (.bool true) rest
  | no {rest} : Starts array object (['f', 'a', 'l', 's', 'e'] ++ rest) (.bool false) rest
  | string {s t rest} : quoted s = .ok (t, rest) → Starts array object ('"' :: s) (.string t) rest
  | array {s v rest} : array s = .ok (v, rest) → Starts array object ('[' :: s) v rest
  | object {s v rest} : object s = .ok (v, rest) → Starts array object ('\x7b' :: s) v rest
  | negative {s n rest} :
      number true s = .ok (.number n, rest) → Starts array object ('-' :: s) (.number n) rest
  | number {c s n rest} : c.isDigit = true →
      number false (c :: s) = .ok (.number n, rest) →
      Starts array object (c :: s) (.number n) rest

theorem valueWith_eq_ok_iff {array object : Reader Value} {s rest : List Char} {v : Value} :
    valueWith array object s = .ok (v, rest) ↔ Starts array object (skipGap s) v rest := by
  rw [valueWith]
  rcases skipGap s with _ | ⟨c, t⟩
  · constructor
    · intro h
      cases h
    · intro h
      cases h
  simp only
  constructor
  · intro h
    -- By the first character, in the order in which it is compared.
    split at h
    · next hc =>
      obtain ⟨rfl, rfl⟩ := word_eq_ok_iff.1 h
      exact hc ▸ .null
    split at h
    · next hc =>
      obtain ⟨rfl, rfl⟩ := word_eq_ok_iff.1 h
      exact hc ▸ .yes
    split at h
    · next hc =>
      obtain ⟨rfl, rfl⟩ := word_eq_ok_iff.1 h
      exact hc ▸ .no
    split at h
    · next hc =>
      split at h
      · cases h
      · next hq =>
        cases h
        exact hc ▸ .string hq
    split at h
    · next hc => exact hc ▸ .array h
    split at h
    · next hc => exact hc ▸ .object h
    split at h
    · next hc =>
      obtain ⟨n, x, -, -, rfl⟩ := number_eq_ok_iff.1 h
      exact hc ▸ .negative h
    split at h
    · next hc =>
      obtain ⟨n, x, -, -, rfl⟩ := number_eq_ok_iff.1 h
      exact .number hc h
    · cases h
  · intro h
    cases h with
    | null => exact word_eq_ok_iff.2 ⟨rfl, rfl⟩
    | yes => exact word_eq_ok_iff.2 ⟨rfl, rfl⟩
    | no => exact word_eq_ok_iff.2 ⟨rfl, rfl⟩
    | string hq => simp [hq]
    | array h => exact h
    | object h => exact h
    | negative h => exact h
    | number hc h =>
      -- A digit is none of the characters that are compared before it.
      have hne : ∀ d : Char, d.isDigit = false → c ≠ d := fun d hd hcd => by
        rw [hcd, hd] at hc
        cases hc
      rw [if_neg (hne _ rfl), if_neg (hne _ rfl), if_neg (hne _ rfl), if_neg (hne _ rfl),
        if_neg (hne _ rfl), if_neg (hne _ rfl), if_neg (hne _ rfl), if_pos hc]
      exact h

/-- What reads a value without nesting reads it with any levels that are left. -/
theorem value_of_starts (depth : Nat) {s rest : List Char} {v : Value}
    (h : ∀ array object, Starts array object (skipGap s) v rest) :
    value depth s = .ok (v, rest) := by
  cases depth with
  | zero => exact valueWith_eq_ok_iff.2 (h _ _)
  | succ depth => exact valueWith_eq_ok_iff.2 (h _ _)

/-- Blank space before a value is passed over. -/
theorem value_congr (depth : Nat) {s s' : List Char} (h : skipGap s = skipGap s') :
    value depth s = value depth s' := by
  cases depth with
  | zero => rw [value, valueWith, valueWith, h]
  | succ depth => rw [value, valueWith, valueWith, h]

theorem valueWith_takesFront {array object : Reader Value} (harray : TakesFront array)
    (hobject : TakesFront object) : TakesFront (valueWith array object) := by
  intro s v rest h
  refine List.IsSuffix.trans ?_ (skipGap_suffix s)
  have hstart := valueWith_eq_ok_iff.1 h
  generalize skipGap s = u at hstart
  cases hstart with
  | null => exact List.suffix_append _ _
  | yes => exact List.suffix_append _ _
  | no => exact List.suffix_append _ _
  | string hq => exact (quoted_takesFront hq).trans (List.suffix_cons _ _)
  | array h => exact (harray h).trans (List.suffix_cons _ _)
  | object h => exact (hobject h).trans (List.suffix_cons _ _)
  | negative h => exact (number_takesFront _ h).trans (List.suffix_cons _ _)
  | number _ h => exact number_takesFront _ h

theorem valueWith_mono {array object array' object' : Reader Value} {s rest : List Char}
    {v : Value} (harray : ∀ {s}, array s = .ok (v, rest) → array' s = .ok (v, rest))
    (hobject : ∀ {s}, object s = .ok (v, rest) → object' s = .ok (v, rest))
    (h : valueWith array object s = .ok (v, rest)) :
    valueWith array' object' s = .ok (v, rest) := by
  have hstart := valueWith_eq_ok_iff.1 h
  refine valueWith_eq_ok_iff.2 ?_
  generalize skipGap s = u at hstart
  cases hstart with
  | null => exact .null
  | yes => exact .yes
  | no => exact .no
  | string hq => exact .string hq
  | array h => exact .array (harray h)
  | object h => exact .object (hobject h)
  | negative h => exact .negative h
  | number hc h => exact .number hc h

theorem valueWith_append {array object : Reader Value} (harray : Extends array)
    (hobject : Extends object) {s rest : List Char} {v : Value} (t : List Char)
    (h : valueWith array object s = .ok (v, rest))
    (hnumber : (∃ n, v = .number n) → rest ≠ [] ∨ Stops t) :
    valueWith array object (s ++ t) = .ok (v, rest ++ t) := by
  have hstart := valueWith_eq_ok_iff.1 h
  -- A value has a first character, which stays the first one when the text goes on.
  cases hgap : skipGap s with
  | nil =>
    rw [hgap] at hstart
    cases hstart
  | cons c u =>
    rw [hgap] at hstart
    refine valueWith_eq_ok_iff.2 ?_
    rw [skipGap_append_of_cons t hgap]
    cases hstart with
    | null => exact .null
    | yes => exact .yes
    | no => exact .no
    | string hq => exact .string (quoted_extends t hq)
    | array h => exact .array (harray t h)
    | object h => exact .object (hobject t h)
    | negative h => exact .negative (number_extends _ h (hnumber ⟨_, rfl⟩))
    | number hc h => exact .number hc (number_extends _ h (hnumber ⟨_, rfl⟩))

/-! ## Values by levels -/

theorem failAt_ne_ok {α : Type} {cause : Cause} {s : List Char} {x : α × List Char} :
    failAt cause s ≠ .ok x := by
  intro h
  cases h

theorem arrayRest_takesFront {item : Reader Value} (hitem : TakesFront item) :
    TakesFront (arrayRest item) := by
  intro s v rest h
  obtain ⟨items, -, hrow⟩ := arrayRest_eq_ok_iff.1 h
  exact row_takesFront hitem hrow

theorem objectRest_takesFront {item : Reader Value} (hitem : TakesFront item) :
    TakesFront (objectRest item) := by
  intro s v rest h
  obtain ⟨members, -, hrow⟩ := objectRest_eq_ok_iff.1 h
  exact row_takesFront (member_takesFront hitem) hrow

/-- A value is taken off the front of the text. -/
theorem value_takesFront (depth : Nat) : TakesFront (value depth) := by
  induction depth with
  | zero =>
    exact valueWith_takesFront (fun h => absurd h failAt_ne_ok) (fun h => absurd h failAt_ne_ok)
  | succ depth ih =>
    exact valueWith_takesFront (arrayRest_takesFront ih) (objectRest_takesFront ih)

theorem arrayRest_extends {item : Reader Value} (htakes : TakesFront item)
    (hitem : ExtendsAtStop item) : Extends (arrayRest item) := by
  intro s v rest t h
  obtain ⟨items, rfl, hrow⟩ := arrayRest_eq_ok_iff.1 h
  exact arrayRest_eq_ok_iff.2 ⟨items, rfl, row_extends htakes hitem t hrow⟩

theorem objectRest_extends {item : Reader Value} (htakes : TakesFront item)
    (hitem : ExtendsAtStop item) : Extends (objectRest item) := by
  intro s v rest t h
  obtain ⟨members, rfl, hrow⟩ := objectRest_eq_ok_iff.1 h
  exact objectRest_eq_ok_iff.2 ⟨members, rfl,
    row_extends (member_takesFront htakes) (member_extends hitem) t hrow⟩

/-- What follows a value does not matter, unless it is a number that ends with the
    text and might go on. -/
theorem value_append (depth : Nat) {s rest : List Char} {v : Value} (t : List Char)
    (h : value depth s = .ok (v, rest))
    (hnumber : (∃ n, v = .number n) → rest ≠ [] ∨ Stops t) :
    value depth (s ++ t) = .ok (v, rest ++ t) := by
  induction depth generalizing s rest v t with
  | zero =>
    exact valueWith_append (fun _ h => absurd h failAt_ne_ok) (fun _ h => absurd h failAt_ne_ok)
      t h hnumber
  | succ depth ih =>
    -- Inside a bracket there is always more text, so numbers are no exception there.
    have hitem : ExtendsAtStop (value depth) := fun hv hstop => ih _ hv fun _ => hstop
    exact valueWith_append (arrayRest_extends (value_takesFront depth) hitem)
      (objectRest_extends (value_takesFront depth) hitem) t h hnumber

/-- A value that was read is not nested deeper than the levels that were allowed. -/
theorem value_depth_le (depth : Nat) {s rest : List Char} {v : Value}
    (h : value depth s = .ok (v, rest)) : v.depth ≤ depth := by
  induction depth generalizing s rest v with
  | zero =>
    have hstart := valueWith_eq_ok_iff.1 h
    generalize skipGap s = u at hstart
    cases hstart with
    | array h => exact absurd h failAt_ne_ok
    | object h => exact absurd h failAt_ne_ok
    | _ => exact Nat.le_refl 0
  | succ depth ih =>
    have hstart := valueWith_eq_ok_iff.1 h
    generalize skipGap s = u at hstart
    cases hstart with
    | array h =>
      obtain ⟨items, rfl, hrow⟩ := arrayRest_eq_ok_iff.1 h
      exact depth_array_le_iff.2 (row_forall (value_takesFront depth) ih hrow)
    | object h =>
      obtain ⟨members, rfl, hrow⟩ := objectRest_eq_ok_iff.1 h
      refine depth_object_le_iff.2
        (row_forall (member_takesFront (value_takesFront depth)) (fun hm => ?_) hrow)
      obtain ⟨s', mid, t, -, -, -, hv⟩ := member_eq_ok_iff.1 hm
      exact ih hv
    | _ => exact Nat.zero_le _

/-- A value that was read is read just so whenever enough levels are allowed. -/
theorem value_of_depth_le {depth : Nat} (depth' : Nat) {s rest : List Char} {v : Value}
    (h : value depth s = .ok (v, rest)) (hdepth : v.depth ≤ depth') :
    value depth' s = .ok (v, rest) := by
  induction depth generalizing depth' s rest v with
  | zero =>
    cases depth' with
    | zero => exact h
    | succ depth' =>
      exact valueWith_mono (fun h => absurd h failAt_ne_ok) (fun h => absurd h failAt_ne_ok) h
  | succ depth ih =>
    cases depth' with
    | zero =>
      -- Neither an array nor an object has depth zero.
      refine valueWith_mono (fun h => ?_) (fun h => ?_) h
      · obtain ⟨items, rfl, -⟩ := arrayRest_eq_ok_iff.1 h
        exact absurd hdepth (Nat.not_succ_le_zero _)
      · obtain ⟨members, rfl, -⟩ := objectRest_eq_ok_iff.1 h
        exact absurd hdepth (Nat.not_succ_le_zero _)
    | succ depth' =>
      have htakes : TakesFront (value depth) := value_takesFront depth
      have htakes' : TakesFront (value depth') := value_takesFront depth'
      refine valueWith_mono (fun h => ?_) (fun h => ?_) h
      · obtain ⟨items, rfl, hrow⟩ := arrayRest_eq_ok_iff.1 h
        exact arrayRest_eq_ok_iff.2 ⟨items, rfl, row_congr htakes htakes'
          (fun hv h => ih depth' h hv) (depth_array_le_iff.1 hdepth) hrow⟩
      · obtain ⟨members, rfl, hrow⟩ := objectRest_eq_ok_iff.1 h
        refine objectRest_eq_ok_iff.2 ⟨members, rfl, row_congr (member_takesFront htakes)
          (member_takesFront htakes') (fun hv h => ?_) (depth_object_le_iff.1 hdepth) hrow⟩
        obtain ⟨s', mid, t, hs, hkey, hcolon, h⟩ := member_eq_ok_iff.1 h
        exact member_eq_ok_iff.2 ⟨s', mid, t, hs, hkey, hcolon, ih depth' h hv⟩

/-! ## Whole texts -/

theorem atEnd_eq_ok_iff {rest : List Char} : atEnd rest = .ok () ↔ skipGap rest = [] := by
  rw [atEnd]
  split
  · next h => simp [h]
  · next h => simpa using h

theorem document_eq_ok_iff {s : List Char} {v : Value} :
    document s = .ok v ↔ ∃ rest, value depthLimit s = .ok (v, rest) ∧ skipGap rest = [] := by
  rw [document]
  constructor
  · intro h
    rcases hv : value depthLimit s with f | ⟨w, rest⟩
    · rw [hv] at h
      cases h
    rcases hend : atEnd rest with f | u
    · simp only [hv, hend, bind, Except.bind, reduceCtorEq] at h
    simp only [hv, hend, bind, Except.bind, pure, Except.pure] at h
    cases h
    exact ⟨rest, rfl, atEnd_eq_ok_iff.1 hend⟩
  · rintro ⟨rest, hv, hend⟩
    simp only [hv, atEnd_eq_ok_iff.2 hend, bind, Except.bind, pure, Except.pure]

/-- A text is a document if it is a value with blank space around it. -/
theorem parse_eq_ok_iff {text : String} {v : Value} :
    parse text = .ok v ↔
      ∃ w rest, value depthLimit text.toList = .ok (w, rest) ∧ skipGap rest = [] ∧
        v = w.settle := by
  rw [parse]
  constructor
  · intro h
    split at h
    · cases h
    · next w hw =>
      cases h
      obtain ⟨rest, hv, hend⟩ := document_eq_ok_iff.1 hw
      exact ⟨w, rest, hv, hend, rfl⟩
  · rintro ⟨w, rest, hv, hend, rfl⟩
    rw [document_eq_ok_iff.2 ⟨rest, hv, hend⟩]

/-- What starts with an opening bracket is read as an array. -/
theorem eq_array_of_skipGap {depth : Nat} {s t rest : List Char} {v : Value}
    (hgap : skipGap s = '[' :: t) (h : value depth s = .ok (v, rest)) :
    ∃ items, v = .array items := by
  cases depth with
  | zero =>
    have hstart := valueWith_eq_ok_iff.1 h
    rw [hgap] at hstart
    cases hstart with
    | array h => exact absurd h failAt_ne_ok
    | number hc _ => cases hc
  | succ depth =>
    have hstart := valueWith_eq_ok_iff.1 h
    rw [hgap] at hstart
    cases hstart with
    | array h =>
      obtain ⟨items, hv, -⟩ := arrayRest_eq_ok_iff.1 h
      exact ⟨items, hv⟩
    | number hc _ => cases hc

/-- The object in a text is its document, if that is an object which the check
    accepts. -/
theorem parseObject_eq_ok_iff {α : Type} {check : Members → Except Mismatch α} {text : String}
    {a : α} :
    parseObject check text = .ok a ↔
      ∃ members, parse text = .ok (.object members) ∧ check members = .ok a := by
  have hskip : value depthLimit (skipGap text.toList) = value depthLimit text.toList :=
    value_congr depthLimit (skipGap_skipGap text.toList)
  simp only [parse_eq_ok_iff]
  rw [parseObject]
  split
  · next t hgap =>
    -- A text that starts an array is refused before it is read; it holds no object.
    simp only [reduceCtorEq, false_iff]
    rintro ⟨members, ⟨w, rest, hw, -, hsettle⟩, -⟩
    obtain ⟨items, rfl⟩ := eq_array_of_skipGap hgap hw
    rw [Value.settle] at hsettle
    cases hsettle
  · rw [hskip]
    constructor
    · intro h
      split at h
      · cases h
      next w rest hw =>
      split at h
      · next members hsettle =>
        split at h
        · cases h
        next b hcheck =>
        split at h
        · cases h
        · next hend =>
          cases h
          exact ⟨members, ⟨w, rest, hw, atEnd_eq_ok_iff.1 hend, hsettle.symm⟩, hcheck⟩
      · cases h
    · rintro ⟨members, ⟨w, rest, hw, hend, hsettle⟩, hcheck⟩
      simp only [hw, ← hsettle, hcheck, atEnd_eq_ok_iff.2 hend]

end Stylebook.Json
