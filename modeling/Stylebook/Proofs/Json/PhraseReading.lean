/-
  Stylebook.Proofs.Json.PhraseReading

  What reading comes to on the texts of the format. A row comes to the results on its items,
  if there is one on each of them, and a value is read by its first character, so by induction
  on the grammar a reader of values comes to one result on each text, whatever follows it and
  however many levels it allows (`Phrase.comesWithin`). So a text may be put into an array or an
  object: what is read there is what is read of it alone (`comes_array_of_one`,
  `comes_object_of_one`).
-/

import Stylebook.Proofs.Json.Grammar
import Stylebook.Proofs.Json.Phrase

namespace Stylebook.Json

/-! ## Rows -/

section Row

variable {α : Type} {close : Closing} {item : Reader α}

/-- The reader of a row's items comes to a result on one of them, from its first character
    on. That does not close the row. -/
def ItemComes (close : Closing) (item : Reader α) (t : List Char) (o : Option α) : Prop :=
  ∃ c u, skipGap t = c :: u ∧ c ≠ close.bracket ∧ Comes item (c :: u) o

/-- Neither blank space nor a part of a number closes a row. -/
structure Closing.Plain (close : Closing) : Prop where
  not_gap : isGap close.bracket = false
  not_numeric : isNumeric close.bracket = false

theorem plain_array : Closing.array.Plain := ⟨rfl, rfl⟩

theorem plain_object : Closing.object.Plain := ⟨rfl, rfl⟩

/-- What stands behind an item of a row stops a number. -/
theorem Closing.Plain.stops (hclose : close.Plain) (items : List (List Char))
    (rest : List Char) : Stops (items.flatMap (',' :: ·) ++ close.bracket :: rest) := by
  cases items with
  | nil => exact headNot_cons.2 hclose.not_numeric
  | cons t items => exact headNot_cons.2 rfl

/-- Behind the first item, a row reads the results on the other ones, if there is a result on
    each of them. -/
theorem repeats_items_iff (hclose : close.Plain) {items : List (List Char)}
    {os : List (Option α)} (h : List.Forall₂ (ItemComes close item) items os)
    {gap rest rest' : List Char} (hgap : Gap gap) {as : List α} :
    Repeats (rowStep close item) (gap ++ (items.flatMap (',' :: ·) ++ close.bracket :: rest))
      as rest' ↔ os = as.map some ∧ rest' = rest := by
  induction h generalizing gap as with
  | nil =>
    have hend : skipGap (gap ++ close.bracket :: rest) = close.bracket :: rest :=
      hgap.skipGap_append hclose.not_gap
    constructor
    · intro hrepeats
      cases hrepeats with
      | stop hs =>
        rcases rowStep_eq_ok_iff.1 hs with ⟨-, hstop⟩ | ⟨s', c, u, b, ⟨⟩, -⟩
        rw [List.flatMap_nil, List.nil_append, hend, List.cons.injEq] at hstop
        exact ⟨rfl, hstop.2.symm⟩
      | next hs _ =>
        rcases rowStep_eq_ok_iff.1 hs with ⟨⟨⟩, -⟩ | ⟨s', c, u, b, -, hcomma, -⟩
        rw [List.flatMap_nil, List.nil_append, hend, List.cons.injEq] at hcomma
        exact absurd hcomma.1 close.bracket_ne_comma
    · rintro ⟨has, rfl⟩
      obtain rfl := List.map_eq_nil_iff.1 has.symm
      exact .stop (rowStep_eq_ok_iff.2 (.inl ⟨rfl, hend⟩))
  | @cons t o items os hitem _ ih =>
    obtain ⟨c, u, hfirst, hc, gap', hgap', hread⟩ := hitem
    have hnext : skipGap (gap ++ (((t :: items).flatMap (',' :: ·)) ++ close.bracket :: rest))
        = ',' :: (t ++ (items.flatMap (',' :: ·) ++ close.bracket :: rest)) := by
      rw [List.flatMap_cons, List.append_assoc, List.cons_append]
      exact hgap.skipGap_append rfl
    have hitem := skipGap_append_of_cons
      (items.flatMap (',' :: ·) ++ close.bracket :: rest) hfirst
    have hread' := hread _ (hclose.stops items rest)
    constructor
    · intro hrepeats
      cases hrepeats with
      | stop hs =>
        rcases rowStep_eq_ok_iff.1 hs with ⟨-, hstop⟩ | ⟨s', c', u', b, ⟨⟩, -⟩
        rw [hnext, List.cons.injEq] at hstop
        exact absurd hstop.1.symm close.bracket_ne_comma
      | next hs hrest =>
        rcases rowStep_eq_ok_iff.1 hs with ⟨⟨⟩, -⟩ | ⟨s', c', u', b, hb, hcomma, hsome, -, hok⟩
        cases hb
        rw [hnext, List.cons.injEq] at hcomma
        rw [← hcomma.2, hitem] at hsome
        rw [← hsome] at hok
        obtain ⟨rfl, rfl⟩ := (hread' _ _).1 hok
        obtain ⟨rfl, hrest'⟩ := (ih hgap').1 hrest
        exact ⟨rfl, hrest'⟩
    · rintro ⟨has, rfl⟩
      obtain ⟨a, as, rfl, ha, has⟩ := List.map_eq_cons_iff.1 has.symm
      have hok := (hread' a _).2 ⟨ha.symm, rfl⟩
      refine .next (rowStep_eq_ok_iff.2 (.inr ⟨_, c, _, a, rfl, hnext, hitem, hc, hok⟩)) ?_
      exact (ih hgap').2 ⟨has.symm, rfl⟩

/-- A row reads the results on its items, if there is a result on each of them. -/
theorem row_items_iff (htakes : TakesFront item) (hclose : close.Plain) {t : List Char}
    {items : List (List Char)} {o : Option α} {os : List (Option α)}
    (h : List.Forall₂ (ItemComes close item) (t :: items) (o :: os)) {rest rest' : List Char}
    {as : List α} :
    row close item (rowText close t items ++ rest) = .ok (as, rest') ↔
      o :: os = as.map some ∧ rest' = rest := by
  obtain ⟨⟨c, u, hfirst, hc, gap, hgap, hread⟩, hitems⟩ := List.forall₂_cons.1 h
  have htext : rowText close t items ++ rest
      = t ++ (items.flatMap (',' :: ·) ++ close.bracket :: rest) := by
    rw [rowText, List.append_assoc, List.append_assoc, List.singleton_append]
  have hitem := skipGap_append_of_cons
    (items.flatMap (',' :: ·) ++ close.bracket :: rest) hfirst
  have hread' := hread _ (hclose.stops items rest)
  rw [htext, row_eq_ok_iff htakes]
  constructor
  · rintro (⟨-, hend⟩ | ⟨c', u', a, mid, others, rfl, hsome, -, hok, hrest⟩)
    · rw [hitem, List.cons.injEq] at hend
      exact absurd hend.1 hc
    · rw [hitem] at hsome
      rw [← hsome] at hok
      obtain ⟨rfl, rfl⟩ := (hread' a mid).1 hok
      obtain ⟨rfl, hrest'⟩ := (repeats_items_iff hclose hitems hgap).1 hrest
      exact ⟨rfl, hrest'⟩
  · rintro ⟨has, rfl⟩
    obtain ⟨a, as, rfl, ha, has⟩ := List.map_eq_cons_iff.1 has.symm
    have hok := (hread' a _).2 ⟨ha.symm, rfl⟩
    exact .inr ⟨c, _, a, _, as, rfl, hitem, hc, hok,
      (repeats_items_iff hclose hitems hgap).2 ⟨has.symm, rfl⟩⟩

/-- The results on the items of a row, if there is one on each of them. -/
def allSome : List (Option α) → Option (List α)
  | [] => some []
  | o :: os => o.bind fun a => (allSome os).map (a :: ·)

theorem allSome_eq_some_iff {os : List (Option α)} {as : List α} :
    allSome os = some as ↔ os = as.map some := by
  induction os generalizing as with
  | nil =>
    rw [allSome, Option.some.injEq, eq_comm, eq_comm (a := [])]
    exact List.map_eq_nil_iff.symm
  | cons o os ih =>
    rw [allSome, Option.bind_eq_some_iff]
    constructor
    · rintro ⟨a, rfl, has⟩
      obtain ⟨as', has', rfl⟩ := Option.map_eq_some_iff.1 has
      rw [ih.1 has', List.map_cons]
    · intro has
      obtain ⟨a, as', rfl, ha, has'⟩ := List.map_eq_cons_iff.1 has.symm
      exact ⟨a, ha.symm, Option.map_eq_some_iff.2 ⟨as', ih.2 has'.symm, rfl⟩⟩

theorem comes_items (htakes : TakesFront item) (hclose : close.Plain) {t : List Char}
    {items : List (List Char)} {os : List (Option α)}
    (h : List.Forall₂ (ItemComes close item) (t :: items) os) :
    Comes (row close item) (rowText close t items) (allSome os) := by
  refine ⟨[], gap_nil, fun rest _ as rest' => ?_⟩
  rw [allSome_eq_some_iff]
  cases h with
  | cons hfirst hitems => exact row_items_iff htakes hclose (.cons hfirst hitems)

/-- An empty row has no items. -/
theorem comes_empty (htakes : TakesFront item) (hclose : close.Plain) {gap : List Char}
    (hgap : Gap gap) : Comes (row close item) (gap ++ [close.bracket]) (some []) := by
  apply comes_some
  intro s _
  rw [List.append_assoc, List.singleton_append, row_eq_ok_iff htakes]
  exact .inl ⟨rfl, hgap.skipGap_append hclose.not_gap⟩

end Row

/-! ## Values by their first character -/

section First

variable {s rest : List Char} {v : Value}

theorem value_iff_starts (depth : Nat) :
    ∃ array object, (∀ s v rest, value depth s = .ok (v, rest) ↔
        Starts array object (skipGap s) v rest) ∧
      ∀ s v rest, (array s = .ok (v, rest) ↔ ∃ d items, depth = d + 1 ∧ v = .array items ∧
          row .array (value d) s = .ok (items, rest)) ∧
        (object s = .ok (v, rest) ↔ ∃ d members, depth = d + 1 ∧ v = .object members ∧
          row .object (member (value d)) s = .ok (members, rest)) := by
  cases depth with
  | zero =>
    refine ⟨_, _, fun s v rest => valueWith_eq_ok_iff, fun s v rest => ⟨?_, ?_⟩⟩
    · exact ⟨fun h => absurd h failAt_ne_ok, fun ⟨d, _, h, _⟩ => absurd h (Nat.succ_ne_zero d).symm⟩
    · exact ⟨fun h => absurd h failAt_ne_ok, fun ⟨d, _, h, _⟩ => absurd h (Nat.succ_ne_zero d).symm⟩
  | succ d =>
    refine ⟨_, _, fun s v rest => valueWith_eq_ok_iff, fun s v rest => ⟨?_, ?_⟩⟩
    · rw [arrayRest_eq_ok_iff]
      constructor
      · rintro ⟨items, rfl, hrow⟩
        exact ⟨d, items, rfl, rfl, hrow⟩
      · rintro ⟨_, items, ⟨⟩, rfl, hrow⟩
        exact ⟨items, rfl, hrow⟩
    · rw [objectRest_eq_ok_iff]
      constructor
      · rintro ⟨members, rfl, hrow⟩
        exact ⟨d, members, rfl, rfl, hrow⟩
      · rintro ⟨_, members, ⟨⟩, rfl, hrow⟩
        exact ⟨members, rfl, hrow⟩

/-- A text that starts with an opening bracket is read as an array. -/
theorem value_array_iff {depth : Nat} :
    value depth ('[' :: s) = .ok (v, rest) ↔ ∃ d items, depth = d + 1 ∧ v = .array items ∧
      row .array (value d) s = .ok (items, rest) := by
  obtain ⟨array, object, hvalue, hrest⟩ := value_iff_starts depth
  rw [hvalue, ← (hrest s v rest).1, skipGap_cons rfl]
  constructor
  · intro h
    cases h with
    | array h => exact h
    | number hc _ => cases hc
  · exact .array

/-- A text that starts with an opening brace is read as an object. -/
theorem value_object_iff {depth : Nat} :
    value depth ('\x7b' :: s) = .ok (v, rest) ↔ ∃ d members, depth = d + 1 ∧ v = .object members ∧
      row .object (member (value d)) s = .ok (members, rest) := by
  obtain ⟨array, object, hvalue, hrest⟩ := value_iff_starts depth
  rw [hvalue, ← (hrest s v rest).2, skipGap_cons rfl]
  constructor
  · intro h
    cases h with
    | object h => exact h
    | number hc _ => cases hc
  · exact .object

theorem value_string_iff {depth : Nat} :
    value depth ('"' :: s) = .ok (v, rest) ↔ ∃ t, v = .string t ∧ quoted s = .ok (t, rest) := by
  obtain ⟨array, object, hvalue, -⟩ := value_iff_starts depth
  rw [hvalue, skipGap_cons rfl]
  constructor
  · intro h
    cases h with
    | string h => exact ⟨_, rfl, h⟩
    | number hc _ => cases hc
  · rintro ⟨t, rfl, h⟩
    exact .string h

theorem value_negative_iff {depth : Nat} :
    value depth ('-' :: s) = .ok (v, rest) ↔ number true s = .ok (v, rest) := by
  obtain ⟨array, object, hvalue, -⟩ := value_iff_starts depth
  rw [hvalue, skipGap_cons rfl]
  constructor
  · intro h
    cases h with
    | negative h => exact h
    | number hc _ => cases hc
  · intro h
    obtain ⟨n, x, -, -, rfl⟩ := number_eq_ok_iff.1 h
    exact .negative h

theorem value_digit_iff {depth : Nat} {c : Char} (hc : c.isDigit = true) :
    value depth (c :: s) = .ok (v, rest) ↔ number false (c :: s) = .ok (v, rest) := by
  obtain ⟨array, object, hvalue, -⟩ := value_iff_starts depth
  have hgap : isGap c = false := isGap_of_isNumeric (isNumeric_of_isDigit c hc)
  rw [hvalue, skipGap_cons hgap]
  constructor
  · intro h
    cases h with
    | number _ h => exact h
    | _ => cases hc
  · intro h
    obtain ⟨n, x, -, -, rfl⟩ := number_eq_ok_iff.1 h
    exact .number hc h

/-- A text that starts with an opening brace. -/
def OpensObject (s : List Char) : Prop := ∃ t, skipGap s = '\x7b' :: t

/-- What is read is an object exactly if it starts with an opening brace. -/
theorem exists_object_iff_of_value {depth : Nat} (h : value depth s = .ok (v, rest)) :
    (∃ members, v = .object members) ↔ OpensObject s := by
  obtain ⟨array, object, hvalue, hrest⟩ := value_iff_starts depth
  have hstart := (hvalue s v rest).1 h
  rw [OpensObject]
  generalize skipGap s = u at hstart
  cases hstart with
  | object h =>
    obtain ⟨d, members, -, rfl, -⟩ := (hrest _ _ _).2.1 h
    exact ⟨fun _ => ⟨_, rfl⟩, fun _ => ⟨members, rfl⟩⟩
  | array h =>
    obtain ⟨d, items, -, rfl, -⟩ := (hrest _ _ _).1.1 h
    simp
  | @number c s n rest hc h =>
    have hne : c ≠ '\x7b' := fun heq => by
      rw [heq] at hc
      cases hc
    simp [hne]
  | _ => simp

end First

/-! ## Values -/

section Values

variable {depth n : Nat} {t u : List Char}

theorem exists_forall₂_and {α β : Type} {R : α → β → Prop} {P : β → Prop} {as : List α}
    (h : ∀ a ∈ as, ∃ b, R a b ∧ P b) : ∃ bs, List.Forall₂ R as bs ∧ ∀ b ∈ bs, P b := by
  induction as with
  | nil => exact ⟨[], .nil, nofun⟩
  | cons a as ih =>
    rw [List.forall_mem_cons] at h
    obtain ⟨⟨b, hb, hpb⟩, hrest⟩ := h
    obtain ⟨bs, hbs, hpbs⟩ := ih hrest
    exact ⟨b :: bs, .cons hb hbs, List.forall_mem_cons.2 ⟨hpb, hpbs⟩⟩

/-- A result on a text in which everything that was read passes a test. -/
def ComesWithin {α : Type} (P : α → Prop) (r : Reader α) (t : List Char) : Prop :=
  ∃ o, Comes r t o ∧ ∀ a, o = some a → P a

/-- Rows of items that pass a test are rows that pass it. -/
theorem comesWithin_items {α : Type} {P : α → Prop} {close : Closing} {item : Reader α}
    (htakes : TakesFront item) (hclose : close.Plain) {items : List (List Char)}
    (h : ∀ t' ∈ t :: items, ∃ o, ItemComes close item t' o ∧ ∀ a, o = some a → P a) :
    ComesWithin (∀ a ∈ ·, P a) (row close item) (rowText close t items) := by
  obtain ⟨os, hos, hwithin⟩ := exists_forall₂_and h
  refine ⟨allSome os, comes_items htakes hclose hos, fun as has a ha => ?_⟩
  rw [allSome_eq_some_iff] at has
  exact hwithin (some a) (has ▸ List.mem_map_of_mem ha) a rfl

theorem comesWithin_empty {α : Type} {P : α → Prop} {close : Closing} {item : Reader α}
    (htakes : TakesFront item) (hclose : close.Plain) (hgap : Gap t) :
    ComesWithin (∀ a ∈ ·, P a) (row close item) (t ++ [close.bracket]) := by
  refine ⟨some [], comes_empty htakes hclose hgap, fun as has => ?_⟩
  cases has
  nofun

/-- An array is read as its row. -/
theorem comes_array {o : Option (List Value)} (h : Comes (row .array (value depth)) t o) :
    Comes (value (depth + 1)) ('[' :: t) (o.map Value.array) := by
  apply h.map
  intro s v rest
  rw [List.cons_append, value_array_iff]
  constructor
  · rintro ⟨_, items, ⟨⟩, rfl, hrow⟩
    exact ⟨items, rfl, hrow⟩
  · rintro ⟨items, rfl, hrow⟩
    exact ⟨depth, items, rfl, rfl, hrow⟩

/-- An object is read as its row of members. -/
theorem comes_object {o : Option Members} (h : Comes (row .object (member (value depth))) t o) :
    Comes (value (depth + 1)) ('\x7b' :: t) (o.map Value.object) := by
  apply h.map
  intro s v rest
  rw [List.cons_append, value_object_iff]
  constructor
  · rintro ⟨_, members, ⟨⟩, rfl, hrow⟩
    exact ⟨members, rfl, hrow⟩
  · rintro ⟨members, rfl, hrow⟩
    exact ⟨depth, members, rfl, rfl, hrow⟩

theorem comesWithin_array
    (h : ∀ d, ComesWithin (∀ v ∈ ·, v.depth ≤ n) (row .array (value d)) t) :
    ComesWithin (·.depth ≤ n + 1) (value depth) ('[' :: t) := by
  cases depth with
  | zero =>
    -- No level is left for the array.
    refine ⟨none, comes_none fun s x hread => ?_, nofun⟩
    obtain ⟨d, items, hd, -⟩ := value_array_iff.1 hread
    exact absurd hd (Nat.succ_ne_zero d).symm
  | succ d =>
    obtain ⟨o, ho, hwithin⟩ := h d
    refine ⟨_, comes_array ho, fun v hv => ?_⟩
    obtain ⟨items, hitems, rfl⟩ := Option.map_eq_some_iff.1 hv
    exact depth_array_le_iff.2 (hwithin items hitems)

theorem comesWithin_object
    (h : ∀ d, ComesWithin (∀ m ∈ ·, m.2.depth ≤ n) (row .object (member (value d))) t) :
    ComesWithin (·.depth ≤ n + 1) (value depth) ('\x7b' :: t) := by
  cases depth with
  | zero =>
    refine ⟨none, comes_none fun s x hread => ?_, nofun⟩
    obtain ⟨d, members, hd, -⟩ := value_object_iff.1 hread
    exact absurd hd (Nat.succ_ne_zero d).symm
  | succ d =>
    obtain ⟨o, ho, hwithin⟩ := h d
    refine ⟨_, comes_object ho, fun v hv => ?_⟩
    obtain ⟨members, hmembers, rfl⟩ := Option.map_eq_some_iff.1 hv
    exact depth_object_le_iff.2 (hwithin members hmembers)

/-- Blank space around a value changes nothing. -/
theorem comes_blank {before after : List Char} {o : Option Value} (hbefore : Gap before)
    (hafter : Gap after) (h : Comes (value depth) t o) :
    Comes (value depth) (before ++ (t ++ after)) o := by
  obtain ⟨gap, hgap, hread⟩ := h
  refine ⟨gap ++ after, ?_, fun rest hstop v rest' => ?_⟩
  · intro c hc
    exact (List.mem_append.1 hc).elim (hgap c) (hafter c)
  · have hskip : value depth (before ++ (t ++ after) ++ rest) = value depth (t ++ (after ++ rest)) := by
      apply value_congr
      rw [List.append_assoc, List.append_assoc, skipGap_append hbefore]
    rw [hskip, hread _ (hafter.stops hstop), List.append_assoc]

theorem comes_space {o : Option Value} (h : Comes (value depth) t o) :
    Comes (value depth) (' ' :: t) o := by
  have hspace : Gap [' '] := List.forall_mem_singleton.2 rfl
  have hblank := comes_blank hspace gap_nil h
  rwa [List.append_nil] at hblank

/-- The first character of a value closes no array. -/
theorem Phrase.exists_first (h : Phrase n t) : ∃ c u, skipGap t = c :: u ∧ c ≠ ']' := by
  induction h with
  | number h =>
    obtain ⟨c, u, rfl, hc⟩ := h.exists_head
    refine ⟨c, u, skipGap_cons (isGap_of_isNumeric (isNumeric_of_isDigit c hc)), ?_⟩
    rintro rfl
    cases hc
  | @blank n before after s hbefore hafter _ ih =>
    obtain ⟨c, u, hfirst, hc⟩ := ih
    refine ⟨c, u ++ after, ?_, hc⟩
    rw [skipGap_append hbefore, skipGap_append_of_cons after hfirst]
  | _ => exact ⟨_, _, skipGap_cons rfl, by decide⟩

/-- An item of an array is read from its first character on. -/
theorem ItemComes.of_value {c : Char} {o : Option Value} (hfirst : skipGap t = c :: u)
    (hc : c ≠ ']') (h : Comes (value depth) t o) : ItemComes .array (value depth) t o := by
  refine ⟨c, u, hfirst, hc, h.congr fun s x => ?_⟩
  have hskip : skipGap (c :: u ++ s) = skipGap (t ++ s) := by
    rw [skipGap_append_of_cons s hfirst]
    exact skipGap_cons (isGap_of_skipGap hfirst)
  rw [value_congr depth hskip]

/-- A member is read as its key and its value, if both are read. -/
theorem ItemComes.of_member {before key between : List Char} {k : Option String}
    {o : Option Value} (hbefore : Gap before) (hbetween : Gap between)
    (hkey : Comes quoted (key ++ ['"']) k) (hvalue : Comes (value depth) t o) :
    ItemComes .object (member (value depth)) (textOfMember before key between t)
      (k.bind fun key => o.map (key, ·)) := by
  obtain ⟨gapKey, hgapKey, hreadKey⟩ := hkey
  obtain ⟨gap, hgap, hread⟩ := hvalue
  refine ⟨'"', _, hbefore.skipGap_append rfl, by decide, gap, hgap, fun rest hstop x rest' => ?_⟩
  have hkey := hreadKey (between ++ ':' :: (t ++ rest)) (hbetween.stops (headNot_cons.2 rfl))
  have htext : key ++ '"' :: (between ++ ':' :: t) ++ rest
      = key ++ ['"'] ++ (between ++ ':' :: (t ++ rest)) := by
    simp only [List.append_assoc, List.cons_append, List.nil_append]
  have hcolon : skipGap (gapKey ++ (between ++ ':' :: (t ++ rest))) = ':' :: (t ++ rest) := by
    rw [skipGap_append hgapKey, hbetween.skipGap_append rfl]
  rw [List.cons_append, htext, member_eq_ok_iff, Option.bind_eq_some_iff]
  constructor
  · rintro ⟨s', mid, t', hs', hquoted, hskip, hitem⟩
    rw [List.cons.injEq] at hs'
    rw [← hs'.2] at hquoted
    obtain ⟨hk, rfl⟩ := (hkey _ _).1 hquoted
    rw [hcolon, List.cons.injEq] at hskip
    rw [← hskip.2] at hitem
    obtain ⟨ho, hrest⟩ := (hread rest hstop _ _).1 hitem
    exact ⟨⟨x.1, hk, Option.map_eq_some_iff.2 ⟨x.2, ho, rfl⟩⟩, hrest⟩
  · rintro ⟨⟨name, hk, hx⟩, hrest⟩
    obtain ⟨v, ho, rfl⟩ := Option.map_eq_some_iff.1 hx
    exact ⟨_, _, _, rfl, (hkey name _).2 ⟨hk, rfl⟩, hcolon,
      (hread rest hstop v rest').2 ⟨ho, hrest⟩⟩

/-- A word is read as what it stands for. -/
theorem comesWithin_word {v : Value} (hv : v.depth = 0)
    (h : ∀ array object s, Starts array object (skipGap (t ++ s)) v s) :
    ComesWithin (·.depth ≤ n) (value depth) t := by
  refine ⟨some v, comes_some fun s _ => value_of_starts depth fun array object => h array object s,
    fun w hw => ?_⟩
  cases hw
  exact hv ▸ Nat.zero_le n

theorem comesWithin_number {x : Option Number} (h : Comes (value depth) t (x.map .number)) :
    ComesWithin (·.depth ≤ n) (value depth) t := by
  refine ⟨x.map .number, h, fun v hv => ?_⟩
  obtain ⟨x, -, rfl⟩ := Option.map_eq_some_iff.1 hv
  exact Nat.zero_le n

/-- A reader of values comes to one result on a phrase, however many levels it allows; what it
    reads is not nested deeper than the phrase. -/
theorem Phrase.comesWithin (h : Phrase n t) (depth : Nat) :
    ComesWithin (·.depth ≤ n) (value depth) t := by
  induction h generalizing depth with
  | null => exact comesWithin_word rfl fun _ _ _ => .null
  | yes => exact comesWithin_word rfl fun _ _ _ => .yes
  | no => exact comesWithin_word rfl fun _ _ _ => .no
  | number h =>
    obtain ⟨x, hx⟩ := h.exists_comes false
    obtain ⟨c, u, rfl, hc⟩ := h.exists_head
    exact comesWithin_number (hx.congr fun s y => value_digit_iff hc)
  | negative h =>
    obtain ⟨x, hx⟩ := h.exists_comes true
    exact comesWithin_number (hx.congr fun s y => value_negative_iff)
  | string h =>
    obtain ⟨text, htext⟩ := h.exists_comes
    refine ⟨text.map Value.string, htext.map Value.string fun s v rest => value_string_iff,
      fun v hv => ?_⟩
    obtain ⟨s, -, rfl⟩ := Option.map_eq_some_iff.1 hv
    exact Nat.zero_le _
  | emptyArray hgap =>
    exact comesWithin_array fun d => comesWithin_empty (value_takesFront d) plain_array hgap
  | array hitems ih =>
    refine comesWithin_array fun d => comesWithin_items (value_takesFront d) plain_array ?_
    intro t ht
    obtain ⟨c, u, hfirst, hc⟩ := (hitems t ht).exists_first
    obtain ⟨o, ho, hwithin⟩ := ih t ht d
    exact ⟨o, .of_value hfirst hc ho, hwithin⟩
  | emptyObject hgap =>
    exact comesWithin_object fun d =>
      comesWithin_empty (member_takesFront (value_takesFront d)) plain_object hgap
  | @object n m ms _ ih =>
    refine comesWithin_object fun d =>
      comesWithin_items (member_takesFront (value_takesFront d)) plain_object ?_
    rw [← List.map_cons, List.forall_mem_map]
    intro m' hm'
    obtain ⟨k, hk⟩ := m'.quotation_key.exists_comes
    obtain ⟨o, ho, hwithin⟩ := ih m' hm' d
    refine ⟨_, .of_member m'.gap_before m'.gap_between hk ho, fun x hx => ?_⟩
    obtain ⟨key, -, hpair⟩ := Option.bind_eq_some_iff.1 hx
    obtain ⟨v, hv, rfl⟩ := Option.map_eq_some_iff.1 hpair
    exact hwithin v hv
  | blank hbefore hafter _ ih =>
    obtain ⟨o, ho, hwithin⟩ := ih depth
    exact ⟨o, comes_blank hbefore hafter ho, hwithin⟩

end Values

/-! ## Texts inside other texts -/

section Inside

variable {depth : Nat} {t u : List Char} {o : Option Value}

/-- In brackets, a value is read as the array of what it is read as alone. -/
theorem comes_array_of_one {c : Char} (hfirst : skipGap t = c :: u) (hc : c ≠ ']')
    (h : Comes (value depth) t o) :
    Comes (value (depth + 1)) ('[' :: (t ++ [']'])) (o.map fun v => .array [v]) := by
  have hrow := comes_items (value_takesFront depth) plain_array
    (.cons (ItemComes.of_value hfirst hc h) .nil)
  have harray := comes_array hrow
  cases o with
  | none => exact harray
  | some v => exact harray

/-- In braces, behind a key, it is read as the object of one member. -/
theorem comes_object_of_one (key : String) (h : Comes (value depth) t o) :
    Comes (value (depth + 1)) ('\x7b' :: (writeString key ++ ':' :: (t ++ ['\x7d'])))
      (o.map fun v => .object [(key, v)]) := by
  have hkey : Comes quoted (key.toList.flatMap escapeChar ++ ['"']) (some key) := by
    apply comes_some
    intro s _
    rw [List.append_assoc]
    exact quoted_written key s
  have hrow := comes_items (member_takesFront (value_takesFront depth)) plain_object
    (.cons (ItemComes.of_member gap_nil gap_nil hkey h) .nil)
  have hobject := comes_object hrow
  have htext : rowText .object (textOfMember [] (key.toList.flatMap escapeChar) [] t) []
      = writeString key ++ ':' :: (t ++ ['\x7d']) := by
    simp only [rowText, textOfMember, writeString, List.flatMap_nil, List.nil_append,
      List.append_assoc, List.cons_append]
    rfl
  rw [htext] at hobject
  cases o with
  | none => exact hobject
  | some v => exact hobject

end Inside

/-- A whole text is the document that reading it comes to. -/
theorem document_eq_ok_iff_comes {s : List Char} {o : Option Value}
    (h : Comes (value depthLimit) s o) {v : Value} : document s = .ok v ↔ o = some v :=
  document_eq_ok_iff.trans h.read_iff.symm

end Stylebook.Json
