/-
  Stylebook.Proofs.Json.Literals

  The numerals of a text by their places. A place leads down from the whole document, by the
  indices of items and the keys of members; of the members with one key the last one counts,
  as it does for the document. A step down goes from the text of an array or an object to the
  text from the item or the value on (`stepInto`), so a place ends at a text, and maybe at a
  numeral (`numeralAt`).

  Both a value that was read and a value that was written splits into parts where its text
  does (`ReadFrom.splits`, `WrittenAt.splits`), so what is shown of a text that starts with a
  numeral holds at every place (`numberAt?_rel`): a text that is read has its numerals where
  the document has its numbers, each the one that the number was read from
  (`numberAt?_parse`), and a text that was written has there the numerals with which the
  numbers are spelled (`numberAt?_print`).
-/

import Stylebook.Proofs.Json.RoundTrip

namespace Stylebook.Json

/-! ## Places -/

/-- A step down into a document: to an item of an array, or to the value of a key. -/
inductive Step where
  | item (index : Nat)
  | key (name : String)
deriving DecidableEq, Repr

/-- Reads a value, for the text from the value on. -/
def valueText : Reader (List Char) := fun s =>
  match value depthLimit s with
  | .error f => .error f
  | .ok (_, rest) => .ok (s, rest)

/-- Reads a member, for its key and the text from its value on. -/
def memberText (s : List Char) : Except Failure ((String × List Char) × List Char) :=
  match s with
  | '"' :: rest => do
    let (key, rest) ← quoted rest
    let ((), rest) ← colon rest
    let (text, rest) ← valueText rest
    return ((key, text), rest)
  | _ => failAt .keyNotString s

/-- The texts of the items, if a text starts with an array. -/
def itemTexts (s : List Char) : List (List Char) :=
  match skipGap s with
  | '[' :: rest =>
    match row .array valueText rest with
    | .ok (texts, _) => texts
    | .error _ => []
  | _ => []

/-- The keys and the texts of the values, if a text starts with an object. -/
def memberTexts (s : List Char) : List (String × List Char) :=
  match skipGap s with
  | '\x7b' :: rest =>
    match row .object memberText rest with
    | .ok (members, _) => members
    | .error _ => []
  | _ => []

/-- The text one step down. Of the members with one key, the last one counts. -/
def stepInto (s : List Char) : Step → Option (List Char)
  | .item index => (itemTexts s)[index]?
  | .key name => (memberTexts s).reverse.lookup name

/-- The numeral at a place of a text. -/
def numeralAt (s : List Char) : List Step → Option Numeral
  | [] =>
    match signedNumeral (skipGap s) with
    | .ok (n, _) => some n
    | .error _ => none
  | step :: place =>
    match stepInto s step with
    | some t => numeralAt t place
    | none => none

/-- The value one step down. -/
def Value.child? : Value → Step → Option Value
  | .array items, .item index => items[index]?
  | .object members, .key name => members.lookup name
  | _, _ => none

/-- The number at a place of a document. -/
def Value.numberAt? (v : Value) : List Step → Option Number
  | [] =>
    match v with
    | .number x => some x
    | _ => none
  | step :: place =>
    match v.child? step with
    | some w => w.numberAt? place
    | none => none

/-! ## Related rows -/

section Related

variable {α β : Type} {R : α → β → Prop}

theorem rel_getElem? {as : List α} {bs : List β} (h : List.Forall₂ R as bs) (i : Nat) :
    Option.Rel R as[i]? bs[i]? := by
  induction h generalizing i with
  | nil => exact .none
  | cons hab _ ih =>
    cases i with
    | zero => exact .some hab
    | succ i => exact ih i

theorem rel_lookup {as : List (String × α)} {bs : List (String × β)}
    (h : List.Forall₂ (fun a b => a.1 = b.1 ∧ R a.2 b.2) as bs) (name : String) :
    Option.Rel R (as.lookup name) (bs.lookup name) := by
  induction h with
  | nil => exact .none
  | @cons a b as bs hab _ ih =>
    obtain ⟨k, x⟩ := a
    obtain ⟨k', y⟩ := b
    obtain ⟨rfl, hxy⟩ : k = k' ∧ R x y := hab
    rw [List.lookup_cons, List.lookup_cons]
    split
    · exact .some hxy
    · exact ih

end Related

/-! ## The readers of texts -/

section Texts

variable {s t rest : List Char}

theorem valueText_eq_ok_iff :
    valueText s = .ok (t, rest) ↔ t = s ∧ ∃ v, value depthLimit s = .ok (v, rest) := by
  rw [valueText]
  constructor
  · intro h
    split at h
    · cases h
    · next v rest' hv =>
      cases h
      exact ⟨rfl, v, hv⟩
  · rintro ⟨rfl, v, hv⟩
    rw [hv]

theorem valueText_takesFront : TakesFront valueText := by
  intro s t rest h
  obtain ⟨-, v, hv⟩ := valueText_eq_ok_iff.1 h
  exact value_takesFront depthLimit hv

theorem memberText_eq_ok_iff {m : String × List Char} :
    memberText s = .ok (m, rest) ↔
      ∃ s' mid v, s = '"' :: s' ∧ quoted s' = .ok (m.1, mid) ∧ skipGap mid = ':' :: m.2 ∧
        value depthLimit m.2 = .ok (v, rest) := by
  constructor
  · intro h
    rw [memberText.eq_def] at h
    split at h
    · next s' =>
      rcases hkey : quoted s' with f | ⟨key, mid⟩
      · rw [hkey] at h
        cases h
      rcases hcolon : colon mid with f | ⟨u, t⟩
      · simp only [hkey, hcolon, bind, Except.bind, reduceCtorEq] at h
      rcases ht : valueText t with f | ⟨t', rest'⟩
      · simp only [hkey, hcolon, ht, bind, Except.bind, reduceCtorEq] at h
      simp only [hkey, hcolon, ht, bind, Except.bind, pure, Except.pure] at h
      cases h
      obtain ⟨rfl, v, hv⟩ := valueText_eq_ok_iff.1 ht
      exact ⟨s', mid, v, rfl, hkey, colon_eq_ok_iff.1 hcolon, hv⟩
    · cases h
  · rintro ⟨s', mid, v, rfl, hkey, hcolon, hv⟩
    have hcolon' : colon mid = .ok ((), m.2) := colon_eq_ok_iff.2 hcolon
    have ht : valueText m.2 = .ok (m.2, rest) := valueText_eq_ok_iff.2 ⟨rfl, v, hv⟩
    simp only [memberText, hkey, hcolon', ht, bind, Except.bind, pure, Except.pure]

theorem memberText_takesFront : TakesFront memberText := by
  intro s m rest h
  obtain ⟨s', mid, v, rfl, hkey, hcolon, hv⟩ := memberText_eq_ok_iff.1 h
  have hm : m.2 <:+ mid := (List.suffix_cons _ _).trans (hcolon ▸ skipGap_suffix mid)
  have hrest := (value_takesFront depthLimit hv).trans hm
  exact (hrest.trans (quoted_takesFront hkey)).trans (List.suffix_cons _ _)

theorem itemTexts_of_row {texts : List (List Char)} (hgap : skipGap s = '[' :: t)
    (h : row .array valueText t = .ok (texts, rest)) : itemTexts s = texts := by
  rw [itemTexts, hgap]
  simp only [h]

theorem memberTexts_of_row {members : List (String × List Char)} (hgap : skipGap s = '\x7b' :: t)
    (h : row .object memberText t = .ok (members, rest)) : memberTexts s = members := by
  rw [memberTexts, hgap]
  simp only [h]

theorem itemTexts_eq_nil {c : Char} (hgap : skipGap s = c :: t) (hc : c ≠ '[') :
    itemTexts s = [] := by
  rw [itemTexts, hgap]
  split
  · next h =>
    cases h
    exact absurd rfl hc
  · rfl

theorem memberTexts_eq_nil {c : Char} (hgap : skipGap s = c :: t) (hc : c ≠ '\x7b') :
    memberTexts s = [] := by
  rw [memberTexts, hgap]
  split
  · next h =>
    cases h
    exact absurd rfl hc
  · rfl

end Texts

/-! ## Values and texts, place by place -/

/-- The parts of a value are related to the parts of a text. -/
inductive Splits (R : Value → List Char → Prop) (s : List Char) : Value → Prop where
  | array {items : List Value} : List.Forall₂ R items (itemTexts s) → memberTexts s = [] →
      Splits R s (.array items)
  | object {members : Members} : itemTexts s = [] →
      List.Forall₂ (fun m t => m.1 = t.1 ∧ R m.2 t.2) members (memberTexts s) →
      Splits R s (.object members)
  | leaf {v : Value} : v.depth = 0 → itemTexts s = [] → memberTexts s = [] → Splits R s v

section Splits

variable {R : Value → List Char → Prop} {s : List Char} {w : Value}

/-- A step down into a settled value is a step down into the text. -/
theorem Splits.child?_rel (h : Splits R s w) (step : Step) :
    Option.Rel (fun v t => ∃ w, v = w.settle ∧ R w t) (w.settle.child? step)
      (stepInto s step) := by
  cases h with
  | @array items hitems hmembers =>
    rw [Value.settle, settleItems_eq_map]
    cases step with
    | item i =>
      refine rel_getElem? (List.forall₂_map_left_iff.2 ?_) i
      exact hitems.imp fun w t hwt => ⟨w, rfl, hwt⟩
    | key name =>
      rw [stepInto, hmembers]
      exact .none
  | @object members hitems hmembers =>
    rw [Value.settle, settleMembers_eq_map]
    cases step with
    | item i =>
      rw [stepInto, hitems]
      exact .none
    | key name =>
      rw [Value.child?, stepInto, lookup_collapse, ← List.map_reverse]
      refine rel_lookup (List.forall₂_map_left_iff.2 ?_) name
      refine (List.rel_reverse hmembers).imp fun m t hmt => ?_
      exact ⟨hmt.1, m.2, rfl, hmt.2⟩
  | leaf hdepth hitems hmembers =>
    have hnone : w.settle.child? step = none := by
      cases w with
      | array items => exact absurd hdepth (Nat.succ_ne_zero _)
      | object members => exact absurd hdepth (Nat.succ_ne_zero _)
      | _ => rfl
    cases step with
    | item i =>
      rw [hnone, stepInto, hitems]
      exact .none
    | key name =>
      rw [hnone, stepInto, hmembers]
      exact .none

/-- What splits into related parts has related numbers and numerals at every place, if it has
    where it starts. -/
theorem numberAt?_rel {Q : Number → Numeral → Prop} (hsplits : ∀ {w s}, R w s → Splits R s w)
    (hnumber : ∀ {w s}, R w s → Option.Rel Q (w.numberAt? []) (numeralAt s [])) (h : R w s)
    (place : List Step) : Option.Rel Q (w.settle.numberAt? place) (numeralAt s place) := by
  induction place generalizing w s with
  | nil =>
    have hsettle : w.settle.numberAt? [] = w.numberAt? [] := by
      cases w <;> rfl
    rw [hsettle]
    exact hnumber h
  | cons step place ih =>
    have hstep := (hsplits h).child?_rel step
    rw [Value.numberAt?, numeralAt]
    generalize w.settle.child? step = v, stepInto s step = t at hstep
    cases hstep with
    | none => exact .none
    | some hwt =>
      obtain ⟨w, rfl, hwt⟩ := hwt
      exact ih hwt

end Splits

/-! ## Numbers that were read -/

/-- A value that a text starts with. -/
def ReadFrom (w : Value) (s : List Char) : Prop :=
  ∃ rest, value depthLimit s = .ok (w, rest)

/-- What does not start with a minus sign or a digit is no numeral. -/
theorem signedNumeral_ne_ok {c : Char} {s : List Char} (hc : c ≠ '-') (hdigit : c.isDigit = false)
    (x : Numeral × List Char) : signedNumeral (c :: s) ≠ .ok x := by
  intro h
  rw [signedNumeral.eq_def] at h
  split at h
  · next heq =>
    cases heq
    exact hc rfl
  · obtain ⟨d, t, heq, hd⟩ := exists_digit_of_numeral h
    cases heq
    rw [hdigit] at hd
    cases hd

theorem numeralAt_nil_eq_none {c : Char} {s t : List Char} (hgap : skipGap s = c :: t)
    (hc : c ≠ '-') (hdigit : c.isDigit = false) : numeralAt s [] = none := by
  rw [numeralAt, hgap]
  split
  · next h => exact absurd h (signedNumeral_ne_ok hc hdigit _)
  · rfl

theorem numeralAt_nil_of_signedNumeral {s rest : List Char} {n : Numeral}
    (h : signedNumeral (skipGap s) = .ok (n, rest)) : numeralAt s [] = some n := by
  rw [numeralAt, h]

/-- The reader of a value that was read at the next level finds the text there. -/
theorem valueText_of_value {depth : Nat} (hdepth : depth ≤ depthLimit) {s rest : List Char}
    {w : Value} (h : value depth s = .ok (w, rest)) :
    ∃ t, valueText s = .ok (t, rest) ∧ ReadFrom w t := by
  have hread := value_of_depth_le depthLimit h (Nat.le_trans (value_depth_le depth h) hdepth)
  exact ⟨s, valueText_eq_ok_iff.2 ⟨rfl, w, hread⟩, rest, hread⟩

theorem memberText_of_member {depth : Nat} (hdepth : depth ≤ depthLimit) {s rest : List Char}
    {m : String × Value} (h : member (value depth) s = .ok (m, rest)) :
    ∃ t, memberText s = .ok (t, rest) ∧ m.1 = t.1 ∧ ReadFrom m.2 t.2 := by
  obtain ⟨s', mid, t, hs, hkey, hcolon, hv⟩ := member_eq_ok_iff.1 h
  have hread := value_of_depth_le depthLimit hv (Nat.le_trans (value_depth_le depth hv) hdepth)
  exact ⟨(m.1, t), memberText_eq_ok_iff.2 ⟨s', mid, m.2, hs, hkey, hcolon, hread⟩, rfl, rest, hread⟩

/-- A value that was read splits where its text does. -/
theorem ReadFrom.splits {w : Value} {s : List Char} (h : ReadFrom w s) : Splits ReadFrom s w := by
  obtain ⟨rest, h⟩ := h
  have hle : 126 ≤ depthLimit := by decide
  have hstart : Starts (arrayRest (value 126)) (objectRest (value 126)) (skipGap s) w rest :=
    valueWith_eq_ok_iff.1 h
  have hleaf {c : Char} {t : List Char} (hgap : skipGap s = c :: t) (harray : c ≠ '[')
      (hobject : c ≠ '\x7b') (hdepth : w.depth = 0) : Splits ReadFrom s w :=
    .leaf hdepth (itemTexts_eq_nil hgap harray) (memberTexts_eq_nil hgap hobject)
  generalize hgap : skipGap s = u at hstart
  cases hstart with
  | null => exact hleaf hgap (by decide) (by decide) rfl
  | yes => exact hleaf hgap (by decide) (by decide) rfl
  | no => exact hleaf hgap (by decide) (by decide) rfl
  | string _ => exact hleaf hgap (by decide) (by decide) rfl
  | negative _ => exact hleaf hgap (by decide) (by decide) rfl
  | number hc _ =>
    refine hleaf hgap ?_ ?_ rfl
    · rintro rfl
      cases hc
    · rintro rfl
      cases hc
  | array h =>
    obtain ⟨items, rfl, hrow⟩ := arrayRest_eq_ok_iff.1 h
    obtain ⟨texts, htexts, hrelated⟩ := exists_row_related (value_takesFront 126)
      valueText_takesFront (fun _ => valueText_of_value hle) (fun _ _ => trivial) hrow
    refine .array ?_ (memberTexts_eq_nil hgap (by decide))
    rw [itemTexts_of_row hgap htexts]
    exact hrelated
  | object h =>
    obtain ⟨members, rfl, hrow⟩ := objectRest_eq_ok_iff.1 h
    obtain ⟨texts, htexts, hrelated⟩ := exists_row_related
      (member_takesFront (value_takesFront 126)) memberText_takesFront
      (fun _ => memberText_of_member hle) (fun _ _ => trivial) hrow
    refine .object (itemTexts_eq_nil hgap (by decide)) ?_
    rw [memberTexts_of_row hgap htexts]
    exact hrelated

/-- A value that was read is a number where its text is a numeral that is read as the number. -/
theorem ReadFrom.number_rel {w : Value} {s : List Char} (h : ReadFrom w s) :
    Option.Rel (fun x n => n.toNumber? = some x) (w.numberAt? []) (numeralAt s []) := by
  obtain ⟨rest, h⟩ := h
  have hstart := valueWith_eq_ok_iff.1 (show value (126 + 1) s = .ok (w, rest) from h)
  have hnone {c : Char} {t : List Char} (hgap : skipGap s = c :: t) (hc : c ≠ '-')
      (hdigit : c.isDigit = false) (hw : w.numberAt? [] = none) :
      Option.Rel (fun x n => n.toNumber? = some x) (w.numberAt? []) (numeralAt s []) := by
    rw [hw, numeralAt_nil_eq_none hgap hc hdigit]
    exact .none
  generalize hgap : skipGap s = u at hstart
  cases hstart with
  | null => exact hnone hgap (by decide) rfl rfl
  | yes => exact hnone hgap (by decide) rfl rfl
  | no => exact hnone hgap (by decide) rfl rfl
  | string _ => exact hnone hgap (by decide) rfl rfl
  | array h =>
    obtain ⟨items, rfl, -⟩ := arrayRest_eq_ok_iff.1 h
    exact hnone hgap (by decide) rfl rfl
  | object h =>
    obtain ⟨members, rfl, -⟩ := objectRest_eq_ok_iff.1 h
    exact hnone hgap (by decide) rfl rfl
  | negative h =>
    obtain ⟨n, x, hn, hx, heq⟩ := number_eq_ok_iff.1 h
    cases heq
    have hsigned : signedNumeral (skipGap s) = .ok (n, rest) := by
      rw [hgap]
      exact hn
    rw [numeralAt_nil_of_signedNumeral hsigned]
    exact .some hx
  | number hc h =>
    obtain ⟨n, x, hn, hx, heq⟩ := number_eq_ok_iff.1 h
    cases heq
    have hsigned : signedNumeral (skipGap s) = .ok (n, rest) := by
      rw [hgap]
      exact signedNumeral_of_numeral hn
    rw [numeralAt_nil_of_signedNumeral hsigned]
    exact .some hx

/-- At each place of a text that is read as a document stands a numeral if and only if a number
    stands there in the document, the one that the numeral is read as. -/
theorem numberAt?_parse {text : String} {v : Value} (h : parse text = .ok v) (place : List Step) :
    Option.Rel (fun x n => n.toNumber? = some x) (v.numberAt? place)
      (numeralAt text.toList place) := by
  obtain ⟨w, rest, hw, -, rfl⟩ := parse_eq_ok_iff.1 h
  exact numberAt?_rel ReadFrom.splits ReadFrom.number_rel ⟨rest, hw⟩ place

/-! ## Numbers that were written -/

/-- A value that was written, with blank space before it, where a text starts. -/
def WrittenAt (layout : Layout) (v : Value) (s : List Char) : Prop :=
  ∃ level rest, Stops rest ∧ v.depth ≤ depthLimit ∧ skipGap s = v.write layout level ++ rest

section Written

variable {layout : Layout} {v : Value} {s : List Char}

theorem skipGap_write (layout : Layout) (level : Nat) (v : Value) (rest : List Char) :
    skipGap (v.write layout level ++ rest) = v.write layout level ++ rest := by
  obtain ⟨c, t, hwrite, hc, -⟩ := write_eq_cons layout level v
  rw [hwrite, List.cons_append, skipGap_cons hc]

/-- What was written is read where it stands, as it was if it holds no number. -/
theorem WrittenAt.readFrom (h : WrittenAt layout v s) :
    ∃ w, ReadFrom w s ∧ v.ReturnsAs w := by
  obtain ⟨level, rest, hstop, hdepth, hs⟩ := h
  obtain ⟨w, hw, hreturn⟩ := exists_value_write layout v level depthLimit hdepth hstop
  refine ⟨w, ⟨rest, ?_⟩, hreturn⟩
  rw [← value_congr depthLimit (skipGap_skipGap s), hs, hw]

theorem WrittenAt.readFrom_of_numbers (h : WrittenAt layout v s) (hnumbers : v.numbers = []) :
    ReadFrom v s := by
  obtain ⟨w, hread, hreturn⟩ := h.readFrom
  rwa [hreturn.eq_of_floats (floatsReadBack_of_numbers hnumbers)] at hread

/-- A number that was written stands there as a numeral with its value. -/
theorem WrittenAt.numeralAt_number {x : Number} (h : WrittenAt layout (.number x) s) :
    ∃ n, numeralAt s [] = some n ∧ n.value = x.value := by
  obtain ⟨level, rest, hstop, -, hs⟩ := h
  obtain ⟨n, y, hn, -, hvalue⟩ := signedNumeral_spell x hstop
  have hsigned : signedNumeral (skipGap s) = .ok (n, rest) := by
    rw [hs]
    exact hn
  exact ⟨n, numeralAt_nil_of_signedNumeral hsigned, hvalue⟩

/-- An item of a row is found where it was written. -/
theorem readsRelated_valueText (level : Nat) (hdepth : v.depth ≤ depthLimit) :
    ReadsRelated .array valueText (Value.write layout level) (WrittenAt layout) v := by
  refine ⟨write_eq_cons layout level v, fun rest hstop => ?_⟩
  obtain ⟨w, hw, -⟩ := exists_value_write layout v level depthLimit hdepth hstop
  exact ⟨_, valueText_eq_ok_iff.2 ⟨rfl, w, hw⟩, level, rest, hstop, hdepth,
    skipGap_write layout level v rest⟩

/-- A member is found where it was written, with its value behind the colon. -/
theorem readsRelated_memberText (level : Nat) {m : String × Value}
    (hdepth : m.2.depth ≤ depthLimit) :
    ReadsRelated .object memberText (writeMember layout level)
      (fun m t => m.1 = t.1 ∧ WrittenAt layout m.2 t.2) m := by
  refine ⟨⟨'"', _, rfl, rfl, by decide⟩, fun rest hstop => ?_⟩
  obtain ⟨gap, hgap, htext⟩ := writeMember_append layout level m
  obtain ⟨w, hw, -⟩ := exists_value_write layout m.2 level depthLimit hdepth hstop
  have hread : value depthLimit (gap ++ (m.2.write layout level ++ rest)) = .ok (w, rest) := by
    rw [value_congr depthLimit (skipGap_append hgap), hw]
  refine ⟨(m.1, gap ++ (m.2.write layout level ++ rest)), memberText_eq_ok_iff.2 ⟨_, _, w,
    htext rest, quoted_written m.1 _, skipGap_cons rfl, hread⟩, rfl, level, rest, hstop, hdepth, ?_⟩
  rw [skipGap_append hgap, skipGap_write]

/-- A text that starts with no array and no object has no parts. -/
theorem WrittenAt.texts_eq_nil (h : WrittenAt layout v s) (hdepth : v.depth = 0) :
    itemTexts s = [] ∧ memberTexts s = [] := by
  obtain ⟨w, hread, hreturn⟩ := h.readFrom
  have hleaf : w.depth = 0 := hreturn.depth_eq.trans hdepth
  cases hread.splits with
  | array _ _ => exact absurd hleaf (Nat.succ_ne_zero _)
  | object _ _ => exact absurd hleaf (Nat.succ_ne_zero _)
  | leaf _ hitems hmembers => exact ⟨hitems, hmembers⟩

/-- A value that was written splits where its text does. -/
theorem WrittenAt.splits (h : WrittenAt layout v s) : Splits (WrittenAt layout) s v := by
  rcases Nat.eq_zero_or_pos v.depth with hleaf | hparts
  · obtain ⟨hitems, hmembers⟩ := h.texts_eq_nil hleaf
    exact .leaf hleaf hitems hmembers
  cases v with
  | array items =>
    cases items with
    | nil =>
      cases (h.readFrom_of_numbers rfl).splits with
      | array hitems hmembers =>
        refine .array ?_ hmembers
        rw [List.forall₂_nil_left_iff] at hitems ⊢
        exact hitems
      | leaf hdepth _ _ => exact absurd hdepth hparts.ne'
    | cons v items =>
      obtain ⟨level, rest, -, hdepth, hs⟩ := h
      have hdeep := depth_array_le_iff.1 (show _ ≤ 126 + 1 from hdepth)
      obtain ⟨texts, htexts, hrelated⟩ := exists_row_written (isGap_layoutGap layout (level + 1))
        (isGap_layoutGap layout level) ⟨rfl, rfl⟩ valueText_takesFront
        (fun v hv => readsRelated_valueText (level + 1) (Nat.le_succ_of_le (hdeep v hv))) rest
      rw [write_array_cons] at hs
      refine .array ?_ (memberTexts_eq_nil hs (by decide))
      rw [itemTexts_of_row hs htexts]
      exact hrelated
  | object members =>
    cases members with
    | nil =>
      cases (h.readFrom_of_numbers rfl).splits with
      | object hitems hmembers =>
        refine .object hitems ?_
        rw [List.forall₂_nil_left_iff] at hmembers ⊢
        exact hmembers
      | leaf hdepth _ _ => exact absurd hdepth hparts.ne'
    | cons m members =>
      obtain ⟨level, rest, -, hdepth, hs⟩ := h
      have hdeep := depth_object_le_iff.1 (show _ ≤ 126 + 1 from hdepth)
      obtain ⟨texts, htexts, hrelated⟩ := exists_row_written (isGap_layoutGap layout (level + 1))
        (isGap_layoutGap layout level) ⟨rfl, rfl⟩ memberText_takesFront
        (fun m hm => readsRelated_memberText (level + 1) (Nat.le_succ_of_le (hdeep m hm))) rest
      rw [write_object_cons] at hs
      refine .object (itemTexts_eq_nil hs (by decide)) ?_
      rw [memberTexts_of_row hs htexts]
      exact hrelated
  | _ => exact absurd hparts (Nat.lt_irrefl 0)

/-- What is no number is not written with the beginning of one. -/
theorem write_eq_cons_of_not_number (layout : Layout) (level : Nat)
    (hv : ∀ x, v ≠ .number x) :
    ∃ c t, v.write layout level = c :: t ∧ c ≠ '-' ∧ c.isDigit = false := by
  cases v with
  | null => exact ⟨_, _, rfl, by decide, rfl⟩
  | bool b => cases b <;> exact ⟨_, _, rfl, by decide, rfl⟩
  | number x => exact absurd rfl (hv x)
  | string t => exact ⟨_, _, rfl, by decide, rfl⟩
  | array items => cases items <;> exact ⟨_, _, rfl, by decide, rfl⟩
  | object members =>
    rcases members with _ | ⟨⟨k, v⟩, members⟩ <;> exact ⟨_, _, rfl, by decide, rfl⟩

/-- A value that was written is a number where its text is a numeral, with the value of it. -/
theorem WrittenAt.number_rel (h : WrittenAt layout v s) :
    Option.Rel (fun x n => n.value = x.value) (v.numberAt? []) (numeralAt s []) := by
  by_cases hnumber : ∃ x, v = .number x
  · obtain ⟨x, rfl⟩ := hnumber
    obtain ⟨n, hn, hvalue⟩ := h.numeralAt_number
    rw [hn]
    exact .some hvalue
  · obtain ⟨level, rest, -, -, hs⟩ := h
    obtain ⟨c, t, hwrite, hc, hdigit⟩ :=
      write_eq_cons_of_not_number layout level (not_exists.1 hnumber)
    rw [hwrite, List.cons_append] at hs
    have hnone : v.numberAt? [] = none := by
      cases v with
      | number x => exact absurd ⟨x, rfl⟩ hnumber
      | _ => rfl
    rw [hnone, numeralAt_nil_eq_none hs hc hdigit]
    exact .none

end Written

/-- At each place of what is written of a document stands a numeral if and only if a number
    stands there in the document, and it has the value of the number. -/
theorem numberAt?_print {v : Value} (hkeys : v.KeysDistinct) (hdepth : v.depth ≤ depthLimit)
    (layout : Layout) (place : List Step) :
    Option.Rel (fun x n => n.value = x.value) (v.numberAt? place)
      (numeralAt (v.print layout).toList place) := by
  have hwritten : WrittenAt layout v (v.print layout).toList := by
    refine ⟨0, [], headNot_nil isNumeric, hdepth, ?_⟩
    have hgap := skipGap_write layout 0 v []
    rw [List.append_nil] at hgap
    rw [Value.print, String.toList_ofList, List.append_nil]
    exact hgap
  have hrel := numberAt?_rel WrittenAt.splits WrittenAt.number_rel hwritten place
  rw [settle_of_keysDistinct hkeys] at hrel
  exact hrel

end Stylebook.Json
