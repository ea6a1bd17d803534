/-
  Stylebook.Proofs.Json.Reordered

  Values that are the same but for the order in which an object has its members, no two of
  them under one key (`Turned`), and values with such values inside (`Inside`). Settling
  repeated keys keeps them so, whatever keys are repeated at the levels above.

  So do texts: where the texts of the members of an object change places (`TurnedText`), what
  is read is the object with its members in the other order, or nothing on both sides, and
  texts with such texts inside (`InsideText`) are read alike. So two texts that differ in such
  orders hold documents that do, or neither holds a document (`ReadAlike.document`).
-/

import Mathlib.Data.List.Perm.Basic
import Stylebook.Proofs.Json.PhraseReading
import Stylebook.Proofs.Json.RepeatedKeys

namespace Stylebook.Json

/-! ## Documents -/

/-- Two objects have the same members, no two of them under one key, each object in an order
    of its own. -/
structure SameMembers (members members' : Members) : Prop where
  distinct : (members.map Prod.fst).Nodup
  perm : members.Perm members'

/-- Two values that are the same, but for the order of members if they are objects. -/
inductive Turned : Value → Value → Prop where
  | same (v : Value) : Turned v v
  | members {members members' : Members} : SameMembers members members' →
      Turned (.object members) (.object members')

/-- Two values that are the same, but for related items, or related values under the same
    keys. -/
inductive Inside (R : Value → Value → Prop) : Value → Value → Prop where
  | same (v : Value) : Inside R v v
  | array {items items' : List Value} : List.Forall₂ R items items' →
      Inside R (.array items) (.array items')
  | object {members members' : Members} :
      List.Forall₂ (fun m m' => m.1 = m'.1 ∧ R m.2 m'.2) members members' →
      Inside R (.object members) (.object members')

section Settling

theorem SameMembers.symm {members members' : Members} (h : SameMembers members members') :
    SameMembers members' members where
  distinct := (h.perm.map Prod.fst).nodup_iff.1 h.distinct
  perm := h.perm.symm

/-- Objects that repeat no key are settled member by member. -/
theorem SameMembers.settle {members members' : Members} (h : SameMembers members members') :
    SameMembers (collapse (settleMembers members)) (collapse (settleMembers members')) := by
  have hcollapse {ms : Members} (hms : (ms.map Prod.fst).Nodup) :
      collapse (settleMembers ms) = ms.map fun m => (m.1, m.2.settle) := by
    rw [collapse_of_nodup (by rwa [keys_settleMembers]), settleMembers_eq_map]
  rw [hcollapse h.distinct, hcollapse h.symm.distinct]
  exact ⟨by rw [List.map_map]; exact h.distinct, h.perm.map _⟩

variable {R : Value → Value → Prop}

/-- Members under the same keys stay so when a key is given another value in both. -/
theorem forall₂_put {members members' : Members} {key : String} {v v' : Value}
    (h : List.Forall₂ (fun m m' => m.1 = m'.1 ∧ R m.2 m'.2) members members') (hv : R v v') :
    List.Forall₂ (fun m m' => m.1 = m'.1 ∧ R m.2 m'.2) (put key v members)
      (put key v' members') := by
  induction h with
  | nil => exact .cons ⟨rfl, hv⟩ .nil
  | @cons m m' members members' hm hrest ih =>
    obtain ⟨k, w⟩ := m
    obtain ⟨k', w'⟩ := m'
    obtain ⟨rfl, hw⟩ : k = k' ∧ R w w' := hm
    rw [put, put]
    split
    · exact .cons ⟨rfl, hv⟩ hrest
    · exact .cons ⟨rfl, hw⟩ ih

/-- So they do when repeated keys are settled. -/
theorem forall₂_collapse {members members' : Members}
    (h : List.Forall₂ (fun m m' => m.1 = m'.1 ∧ R m.2 m'.2) members members') :
    List.Forall₂ (fun m m' => m.1 = m'.1 ∧ R m.2 m'.2) (collapse members) (collapse members') := by
  rw [collapse, collapse]
  -- Along both folds, what was put stays related.
  have hfold : ∀ settled settled' : Members,
      List.Forall₂ (fun m m' => m.1 = m'.1 ∧ R m.2 m'.2) settled settled' →
      List.Forall₂ (fun m m' => m.1 = m'.1 ∧ R m.2 m'.2)
        (members.foldl (fun settled member => put member.1 member.2 settled) settled)
        (members'.foldl (fun settled member => put member.1 member.2 settled) settled') := by
    induction h with
    | nil => exact fun _ _ h => h
    | @cons m m' members members' hm _ ih =>
      obtain ⟨k, w⟩ := m
      obtain ⟨k', w'⟩ := m'
      obtain ⟨rfl, hw⟩ : k = k' ∧ R w w' := hm
      exact fun settled settled' h => ih _ _ (forall₂_put h hw)
  exact hfold [] [] .nil

theorem Turned.settle {v w : Value} (h : Turned v w) : Turned v.settle w.settle := by
  cases h with
  | same => exact .same _
  | members hmembers =>
    rw [Value.settle, Value.settle]
    exact .members hmembers.settle

theorem Inside.settle {v w : Value} (h : Inside R v w)
    (hR : ∀ v w, R v w → R v.settle w.settle) : Inside R v.settle w.settle := by
  cases h with
  | same => exact .same _
  | array hitems =>
    rw [Value.settle, Value.settle, settleItems_eq_map, settleItems_eq_map]
    refine .array ?_
    rw [List.forall₂_map_left_iff, List.forall₂_map_right_iff]
    exact hitems.imp hR
  | object hmembers =>
    rw [Value.settle, Value.settle, settleMembers_eq_map, settleMembers_eq_map]
    refine .object (forall₂_collapse ?_)
    rw [List.forall₂_map_left_iff, List.forall₂_map_right_iff]
    exact hmembers.imp fun m m' hm => ⟨hm.1, hR m.2 m'.2 hm.2⟩

end Settling

/-! ## Texts -/

/-- The text of an object. -/
def objectText (m : MemberText) (ms : List MemberText) : List Char :=
  '\x7b' :: rowText .object m.text (ms.map MemberText.text)

/-- The text of an array. -/
def arrayText (item : List Char) (items : List (List Char)) : List Char :=
  '[' :: rowText .array item items

/-- Two texts that are the same, but for the order in which the texts of members stand if they
    are objects; no key is repeated, as far as the object is read at all. -/
inductive TurnedText : List Char → List Char → Prop where
  | same {n : Nat} {t : List Char} : Phrase n t → TurnedText t t
  | members {n : Nat} {m m' : MemberText} {ms ms' : List MemberText} :
      (∀ x ∈ m :: ms, Phrase n x.value) → (m :: ms).Perm (m' :: ms') →
      (∀ depth members rest, value depth (objectText m ms) = .ok (.object members, rest) →
        (members.map Prod.fst).Nodup) →
      TurnedText (objectText m ms) (objectText m' ms')
  | blank {before after t t' : List Char} : Gap before → Gap after → TurnedText t t' →
      TurnedText (before ++ (t ++ after)) (before ++ (t' ++ after))

/-- A member with another value. -/
def MemberText.withValue (m : MemberText) (value : List Char) : MemberText :=
  { m with value := value }

/-- Two texts that are the same, but for related items, or related values of members. -/
inductive InsideText (S : List Char → List Char → Prop) : List Char → List Char → Prop where
  | same {n : Nat} {t : List Char} : Phrase n t → InsideText S t t
  | array {p : List Char × List Char} {ps : List (List Char × List Char)} :
      (∀ q ∈ p :: ps, S q.1 q.2) →
      InsideText S (arrayText p.1 (ps.map Prod.fst)) (arrayText p.2 (ps.map Prod.snd))
  | object {p : MemberText × List Char} {ps : List (MemberText × List Char)} :
      (∀ q ∈ p :: ps, S q.1.value q.2) →
      InsideText S (objectText p.1 (ps.map Prod.fst))
        (objectText (p.1.withValue p.2) (ps.map fun q => q.1.withValue q.2))
  | blank {before after t t' : List Char} : Gap before → Gap after → InsideText S t t' →
      InsideText S (before ++ (t ++ after)) (before ++ (t' ++ after))

/-! ## Results on rows -/

section Rows

variable {α β : Type} {R : α → α → Prop}

/-- Related results on the items of two rows are related results on the rows. -/
theorem rel_allSome {os os' : List (Option α)} (h : List.Forall₂ (Option.Rel R) os os') :
    Option.Rel (List.Forall₂ R) (allSome os) (allSome os') := by
  induction h with
  | nil => exact .some .nil
  | cons ho _ ih =>
    rw [allSome, allSome]
    cases ho with
    | none => exact .none
    | some hab =>
      generalize allSome _ = as? at ih ⊢
      generalize allSome _ = bs? at ih ⊢
      cases ih with
      | none => exact .none
      | some hrest => exact .some (.cons hab hrest)

/-- The same results in another order are the same results on the rows, in that order. -/
theorem rel_allSome_of_perm {os os' : List (Option α)} (h : os.Perm os') :
    Option.Rel List.Perm (allSome os) (allSome os') := by
  induction h with
  | nil => exact .some .nil
  | @cons o os os' _ ih =>
    rw [allSome, allSome]
    cases o with
    | none => exact .none
    | some a =>
      generalize allSome os = as? at ih ⊢
      generalize allSome os' = bs? at ih ⊢
      cases ih with
      | none => exact .none
      | some hrest => exact .some (hrest.cons a)
  | swap o o' os =>
    simp only [allSome]
    cases o with
    | none => cases o' <;> exact .none
    | some a =>
      cases o' with
      | none => exact .none
      | some b =>
        cases allSome os with
        | none => exact .none
        | some as => exact .some (.swap a b as)
  | @trans os os₁ os₂ _ _ ih ih' =>
    generalize allSome os₁ = middle at ih ih'
    generalize allSome os = first at ih ⊢
    generalize allSome os₂ = last at ih' ⊢
    cases ih with
    | none =>
      cases ih'
      exact .none
    | some hperm =>
      cases ih' with
      | some hperm' => exact .some (hperm.trans hperm')

theorem rel_map {S : β → β → Prop} {f : α → β} {o o' : Option α} (h : Option.Rel R o o')
    (hf : ∀ a b, o = some a → R a b → S (f a) (f b)) : Option.Rel S (o.map f) (o'.map f) := by
  cases h with
  | none => exact .none
  | some hab => exact .some (hf _ _ rfl hab)

end Rows

/-! ## Reading -/

section Reading

/-- Two texts that are read as related values wherever they stand, or both refused. -/
structure ReadAlike (R : Value → Value → Prop) (t t' : List Char) : Prop where
  starts : ∃ c u, skipGap t = c :: u ∧ c ≠ ']'
  starts' : ∃ c u, skipGap t' = c :: u ∧ c ≠ ']'
  comes : ∀ depth, ∃ o o', Comes (value depth) t o ∧ Comes (value depth) t' o' ∧ Option.Rel R o o'

variable {R : Value → Value → Prop} {t t' : List Char} {n : Nat}

theorem readAlike_same (h : Phrase n t) (hR : ∀ v, R v v) : ReadAlike R t t := by
  refine ⟨h.exists_first, h.exists_first, fun depth => ?_⟩
  obtain ⟨o, ho, -⟩ := h.comesWithin depth
  refine ⟨o, o, ho, ho, ?_⟩
  cases o with
  | none => exact .none
  | some v => exact .some (hR v)

theorem ReadAlike.blank {before after : List Char} (hbefore : Gap before) (hafter : Gap after)
    (h : ReadAlike R t t') : ReadAlike R (before ++ (t ++ after)) (before ++ (t' ++ after)) := by
  have hstarts {s : List Char} (h : ∃ c u, skipGap s = c :: u ∧ c ≠ ']') :
      ∃ c u, skipGap (before ++ (s ++ after)) = c :: u ∧ c ≠ ']' := by
    obtain ⟨c, u, hfirst, hc⟩ := h
    refine ⟨c, u ++ after, ?_, hc⟩
    rw [skipGap_append hbefore, skipGap_append_of_cons after hfirst]
  refine ⟨hstarts h.starts, hstarts h.starts', fun depth => ?_⟩
  obtain ⟨o, o', ho, ho', hrel⟩ := h.comes depth
  exact ⟨o, o', comes_blank hbefore hafter ho, comes_blank hbefore hafter ho', hrel⟩

/-- What comes to related results behind a bracket, however many levels are left, is read alike
    as the values that the bracket opens. -/
theorem readAlike_behind {α : Type} {bracket : Char} {inner : Nat → Reader α} {make : α → Value}
    {S : α → α → Prop} (hbracket : isGap bracket = false ∧ bracket ≠ ']')
    (hzero : ∀ s, Comes (value 0) (bracket :: s) none)
    (hsucc : ∀ d s o, Comes (inner d) s o → Comes (value (d + 1)) (bracket :: s) (o.map make))
    (hinner : ∀ d, ∃ o o', Comes (inner d) t o ∧ Comes (inner d) t' o' ∧ Option.Rel S o o')
    (hS : ∀ depth a a' rest, value depth (bracket :: t) = .ok (make a, rest) → S a a' →
      R (make a) (make a')) :
    ReadAlike R (bracket :: t) (bracket :: t') := by
  obtain ⟨hgap, hclose⟩ := hbracket
  refine ⟨⟨_, _, skipGap_cons hgap, hclose⟩, ⟨_, _, skipGap_cons hgap, hclose⟩, fun depth => ?_⟩
  cases depth with
  | zero => exact ⟨none, none, hzero t, hzero t', .none⟩
  | succ d =>
    obtain ⟨o, o', ho, ho', hrel⟩ := hinner d
    have hvalue := hsucc d t o ho
    refine ⟨_, _, hvalue, hsucc d t' o' ho', rel_map hrel fun a a' ha haa' => ?_⟩
    obtain ⟨rest, hread, -⟩ := hvalue.read_iff.1 (by rw [ha]; rfl)
    exact hS _ a a' rest hread haa'

/-- Rows of items that are read alike make arrays that are. -/
theorem readAlike_array {S : List Value → List Value → Prop}
    (hrow : ∀ d, ∃ o o', Comes (row .array (value d)) t o ∧
      Comes (row .array (value d)) t' o' ∧ Option.Rel S o o')
    (hS : ∀ vs vs', S vs vs' → R (.array vs) (.array vs')) :
    ReadAlike R ('[' :: t) ('[' :: t') := by
  refine readAlike_behind ⟨rfl, by decide⟩ (fun s => comes_none fun rest x hread => ?_)
    (fun _ _ _ => comes_array) hrow fun _ vs vs' _ _ => hS vs vs'
  obtain ⟨d, items, hd, -⟩ := value_array_iff.1 hread
  exact absurd hd (Nat.succ_ne_zero d).symm

theorem readAlike_object {S : Members → Members → Prop}
    (hrow : ∀ d, ∃ o o', Comes (row .object (member (value d))) t o ∧
      Comes (row .object (member (value d))) t' o' ∧ Option.Rel S o o')
    (hS : ∀ depth ms ms' rest, value depth ('\x7b' :: t) = .ok (.object ms, rest) → S ms ms' →
      R (.object ms) (.object ms')) :
    ReadAlike R ('\x7b' :: t) ('\x7b' :: t') := by
  refine readAlike_behind ⟨rfl, by decide⟩ (fun s => comes_none fun rest x hread => ?_)
    (fun _ _ _ => comes_object) hrow hS
  obtain ⟨d, members, hd, -⟩ := value_object_iff.1 hread
  exact absurd hd (Nat.succ_ne_zero d).symm

/-- On a member, with whatever value, the reader of members comes to its key and to what is read
    of the value. -/
theorem exists_itemComes_member (m : MemberText) (d : Nat) :
    ∃ k : Option String, ∀ t o, Comes (value d) t o →
      ItemComes .object (member (value d)) (m.withValue t).text
        (k.bind fun key => o.map (key, ·)) := by
  obtain ⟨k, hk⟩ := m.quotation_key.exists_comes
  exact ⟨k, fun t o ho => .of_member m.gap_before m.gap_between hk ho⟩

theorem exists_forall₂_both {α β γ : Type} {A : α → β → Prop} {B : α → γ → Prop}
    {C : β → γ → Prop} {as : List α} (h : ∀ a ∈ as, ∃ b c, A a b ∧ B a c ∧ C b c) :
    ∃ bs cs, List.Forall₂ A as bs ∧ List.Forall₂ B as cs ∧ List.Forall₂ C bs cs := by
  induction as with
  | nil => exact ⟨[], [], .nil, .nil, .nil⟩
  | cons a as ih =>
    rw [List.forall_mem_cons] at h
    obtain ⟨⟨b, c, hb, hc, hbc⟩, hrest⟩ := h
    obtain ⟨bs, cs, hbs, hcs, hbcs⟩ := ih hrest
    exact ⟨b :: bs, c :: cs, .cons hb hbs, .cons hc hcs, .cons hbc hbcs⟩

theorem comes_members {d : Nat} {m : MemberText} {ms : List MemberText}
    {os : List (Option (String × Value))}
    (h : List.Forall₂ (fun x o => ItemComes .object (member (value d)) x.text o) (m :: ms) os) :
    Comes (row .object (member (value d))) (rowText .object m.text (ms.map MemberText.text))
      (allSome os) :=
  comes_items (member_takesFront (value_takesFront d)) plain_object
    (List.forall₂_map_left_iff.2 h)

/-- Where the members of an object change places, the members that are read do. -/
theorem TurnedText.readAlike (h : TurnedText t t') : ReadAlike Turned t t' := by
  induction h with
  | same hphrase => exact readAlike_same hphrase .same
  | blank hbefore hafter _ ih => exact ih.blank hbefore hafter
  | @members n m m' ms ms' hvalues hperm hdistinct =>
    have hrow (d : Nat) : ∃ o o',
        Comes (row .object (member (value d))) (rowText .object m.text (ms.map MemberText.text)) o ∧
        Comes (row .object (member (value d)))
          (rowText .object m'.text (ms'.map MemberText.text)) o' ∧
        Option.Rel List.Perm o o' := by
      have hitems : ∀ x ∈ m :: ms, ∃ o, ItemComes .object (member (value d)) x.text o ∧ True := by
        intro x hx
        obtain ⟨o, ho, -⟩ := (hvalues x hx).comesWithin d
        obtain ⟨k, hk⟩ := exists_itemComes_member x d
        exact ⟨_, hk x.value o ho, trivial⟩
      obtain ⟨os, hos, -⟩ := exists_forall₂_and hitems
      obtain ⟨os', hos', hperm'⟩ := List.perm_comp_forall₂ hperm.symm hos
      exact ⟨_, _, comes_members hos, comes_members hos', rel_allSome_of_perm hperm'.symm⟩
    exact readAlike_object hrow fun depth members members' rest hread hmembers =>
      .members ⟨hdistinct depth members rest hread, hmembers⟩

/-- Items and values that are read alike make arrays and objects that are. -/
theorem InsideText.readAlike {S : List Char → List Char → Prop}
    (hS : ∀ u u', S u u' → ReadAlike R u u') (h : InsideText S t t') :
    ReadAlike (Inside R) t t' := by
  induction h with
  | same hphrase => exact readAlike_same hphrase .same
  | blank hbefore hafter _ ih => exact ih.blank hbefore hafter
  | @array p ps hitems =>
    have hrow (d : Nat) : ∃ o o',
        Comes (row .array (value d)) (rowText .array p.1 (ps.map Prod.fst)) o ∧
        Comes (row .array (value d)) (rowText .array p.2 (ps.map Prod.snd)) o' ∧
        Option.Rel (List.Forall₂ R) o o' := by
      have hboth : ∀ q ∈ p :: ps, ∃ o o', ItemComes .array (value d) q.1 o ∧
          ItemComes .array (value d) q.2 o' ∧ Option.Rel R o o' := by
        intro q hq
        obtain ⟨⟨c, u, hfirst, hc⟩, ⟨c', u', hfirst', hc'⟩, hcomes⟩ := hS _ _ (hitems q hq)
        obtain ⟨o, o', ho, ho', hrel⟩ := hcomes d
        exact ⟨o, o', .of_value hfirst hc ho, .of_value hfirst' hc' ho', hrel⟩
      obtain ⟨os, os', hos, hos', hrel⟩ := exists_forall₂_both hboth
      exact ⟨_, _, comes_items (value_takesFront d) plain_array (List.forall₂_map_left_iff.2 hos),
        comes_items (value_takesFront d) plain_array (List.forall₂_map_left_iff.2 hos'),
        rel_allSome hrel⟩
    exact readAlike_array hrow fun _ _ => .array
  | @object p ps hvalues =>
    have hrow (d : Nat) : ∃ o o',
        Comes (row .object (member (value d)))
          (rowText .object p.1.text ((ps.map Prod.fst).map MemberText.text)) o ∧
        Comes (row .object (member (value d))) (rowText .object (p.1.withValue p.2).text
          ((ps.map fun q => q.1.withValue q.2).map MemberText.text)) o' ∧
        Option.Rel (List.Forall₂ fun x y => x.1 = y.1 ∧ R x.2 y.2) o o' := by
      have hboth : ∀ q ∈ p :: ps, ∃ x y, ItemComes .object (member (value d)) q.1.text x ∧
          ItemComes .object (member (value d)) (q.1.withValue q.2).text y ∧
          Option.Rel (fun x y => x.1 = y.1 ∧ R x.2 y.2) x y := by
        intro q hq
        obtain ⟨o, o', ho, ho', hrel⟩ := (hS _ _ (hvalues q hq)).comes d
        obtain ⟨k, hk⟩ := exists_itemComes_member q.1 d
        refine ⟨_, _, hk q.1.value o ho, hk q.2 o' ho', ?_⟩
        cases k with
        | none => exact .none
        | some key => exact rel_map hrel fun v v' _ hv => ⟨rfl, hv⟩
      obtain ⟨os, os', hos, hos', hrel⟩ := exists_forall₂_both hboth
      have htexts : List.Forall₂ (fun x o => ItemComes .object (member (value d)) x.text o)
          ((p :: ps).map Prod.fst) os := List.forall₂_map_left_iff.2 hos
      have htexts' : List.Forall₂ (fun x o => ItemComes .object (member (value d)) x.text o)
          ((p :: ps).map fun q => q.1.withValue q.2) os' := List.forall₂_map_left_iff.2 hos'
      exact ⟨_, _, comes_members htexts, comes_members htexts', rel_allSome hrel⟩
    exact readAlike_object hrow fun _ _ _ _ _ => .object

end Reading

/-! ## Whole texts -/

/-- Texts that are read alike hold related documents, before repeated keys are settled, or
    neither of them holds one. -/
theorem ReadAlike.document {R : Value → Value → Prop} {text text' : String}
    (h : ReadAlike R text.toList text'.toList) :
    (∃ w w', document text.toList = .ok w ∧ document text'.toList = .ok w' ∧ R w w') ∨
      (∀ w, document text.toList ≠ .ok w) ∧ ∀ w, document text'.toList ≠ .ok w := by
  obtain ⟨o, o', ho, ho', hrel⟩ := h.comes depthLimit
  have hread (w : Value) := document_eq_ok_iff_comes ho (v := w)
  have hread' (w : Value) := document_eq_ok_iff_comes ho' (v := w)
  cases hrel with
  | none =>
    refine .inr ⟨fun w hw => ?_, fun w hw => ?_⟩
    · cases (hread w).1 hw
    · cases (hread' w).1 hw
  | some hR => exact .inl ⟨_, _, (hread _).2 rfl, (hread' _).2 rfl, hR⟩

end Stylebook.Json
