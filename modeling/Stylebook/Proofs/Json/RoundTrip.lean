/-
  Stylebook.Proofs.Json.RoundTrip

  A document that was written is read again: on one line or with each item on a line of its
  own, at any level, and with any text behind it that could not go on with a number. It comes
  back with the same nesting, and as it was if its floats read back (`exists_value_write`).

  So a whole text reads back as the document if no object repeats a key, the nesting is not too
  deep and the floats read back (`parse_written`); and what was read has the first two
  properties. Whether a text that was written is read at all is decided by the nesting alone
  (`exists_parse_print_iff`).
-/

import Stylebook.Json.Write
import Stylebook.Proofs.Json.Float

namespace Stylebook.Json

/-! ## Layout -/

theorem isGap_layoutGap (layout : Layout) (level : Nat) :
    ∀ c ∈ layout.gap level, isGap c = true := by
  intro c hc
  cases layout with
  | compact => cases hc
  | pretty =>
    rcases List.mem_cons.1 hc with rfl | hc
    · rfl
    · rw [(List.mem_replicate.1 hc).2]
      rfl

/-- The colon and the blank space behind it. -/
theorem layoutColon_eq (layout : Layout) :
    ∃ gap, layout.colon = ':' :: gap ∧ ∀ c ∈ gap, isGap c = true := by
  cases layout with
  | compact => exact ⟨[], rfl, by simp⟩
  | pretty => exact ⟨[' '], rfl, by simp [isGap]⟩

/-! ## Rows -/

section Row

variable {α : Type} {close : Closing} {write : α → List Char} {gap last : List Char}

/-- What is written behind the first item of a row, and what follows the row. -/
def rowEnd (close : Closing) (write : α → List Char) (gap last : List Char) (as : List α)
    (rest : List Char) : List Char :=
  as.flatMap (fun a => ',' :: gap ++ write a) ++ (last ++ close.bracket :: rest)

theorem rowEnd_cons (a : α) (as : List α) (rest : List Char) :
    rowEnd close write gap last (a :: as) rest
      = ',' :: (gap ++ (write a ++ rowEnd close write gap last as rest)) := by
  simp [rowEnd]

/-- A number is stopped by what stands behind an item of a row. -/
theorem stops_rowEnd (write : α → List Char) (gap : List Char)
    (hlast : ∀ c ∈ last, isGap c = true) (hbracket : isNumeric close.bracket = false)
    (as : List α) (rest : List Char) :
    Stops (rowEnd close write gap last as rest) := by
  cases as with
  | cons a as =>
    rw [rowEnd_cons]
    exact headNot_cons.2 rfl
  | nil =>
    cases last with
    | nil => exact headNot_cons.2 hbracket
    | cons c last =>
      refine headNot_cons.2 ?_
      cases hc : isNumeric c with
      | false => rfl
      | true =>
        have hblank := hlast c List.mem_cons_self
        rw [isGap_of_isNumeric hc] at hblank
        cases hblank

/-- An item that is written so that a reader finds it in a row, as something that is related to
    it. -/
structure ReadsRelated {β : Type} (close : Closing) (reader : Reader β) (write : α → List Char)
    (R : α → β → Prop) (a : α) : Prop where
  head : ∃ c t, write a = c :: t ∧ isGap c = false ∧ c ≠ close.bracket
  read : ∀ rest, Stops rest → ∃ b, reader (write a ++ rest) = .ok (b, rest) ∧ R a b

section Related

variable {β : Type} {reader : Reader β} {R : α → β → Prop}

/-- The items of a written row behind the first one are found step by step. -/
theorem exists_repeats_rowEnd (hgap : ∀ c ∈ gap, isGap c = true)
    (hlast : ∀ c ∈ last, isGap c = true)
    (hbracket : isGap close.bracket = false ∧ isNumeric close.bracket = false)
    {as : List α} (has : ∀ a ∈ as, ReadsRelated close reader write R a) (rest : List Char) :
    ∃ bs, Repeats (rowStep close reader) (rowEnd close write gap last as rest) bs rest ∧
      List.Forall₂ R as bs := by
  induction as with
  | nil =>
    refine ⟨[], .stop (rowStep_eq_ok_iff.2 (.inl ⟨rfl, ?_⟩)), .nil⟩
    rw [rowEnd, List.flatMap_nil, List.nil_append, skipGap_append hlast,
      skipGap_cons hbracket.1]
  | cons a as ih =>
    rw [List.forall_mem_cons] at has
    obtain ⟨bs, hbs, hrelated⟩ := ih has.2
    obtain ⟨c, t, hwrite, hc, hne⟩ := has.1.head
    -- What follows the item starts with a comma, a gap or the bracket.
    obtain ⟨b, hread, hb⟩ := has.1.read _ (stops_rowEnd write gap hlast hbracket.2 as rest)
    rw [hwrite, List.cons_append] at hread
    rw [rowEnd_cons]
    refine ⟨b :: bs, .next (rowStep_eq_ok_iff.2 ?_) hbs, .cons hb hrelated⟩
    refine .inr ⟨_, c, _, b, rfl, skipGap_cons rfl, ?_, hne, hread⟩
    rw [skipGap_append hgap, hwrite, List.cons_append, skipGap_cons hc]

/-- The items of a written row are found. -/
theorem exists_row_written (hgap : ∀ c ∈ gap, isGap c = true)
    (hlast : ∀ c ∈ last, isGap c = true)
    (hbracket : isGap close.bracket = false ∧ isNumeric close.bracket = false)
    (htakes : TakesFront reader) {a : α} {as : List α}
    (has : ∀ a' ∈ a :: as, ReadsRelated close reader write R a') (rest : List Char) :
    ∃ bs, row close reader (gap ++ (write a ++ rowEnd close write gap last as rest))
        = .ok (bs, rest) ∧ List.Forall₂ R (a :: as) bs := by
  rw [List.forall_mem_cons] at has
  obtain ⟨bs, hbs, hrelated⟩ := exists_repeats_rowEnd hgap hlast hbracket has.2 rest
  obtain ⟨c, t, hwrite, hc, hne⟩ := has.1.head
  obtain ⟨b, hread, hb⟩ := has.1.read _ (stops_rowEnd write gap hlast hbracket.2 as rest)
  rw [hwrite, List.cons_append] at hread
  refine ⟨b :: bs, (row_eq_ok_iff htakes).2 ?_, .cons hb hrelated⟩
  refine .inr ⟨c, _, b, _, bs, rfl, ?_, hne, hread, hbs⟩
  rw [skipGap_append hgap, hwrite, List.cons_append, skipGap_cons hc]

end Related

end Row

/-! ## Members -/

/-- A member as it is written at a level. -/
def writeMember (layout : Layout) (level : Nat) (m : String × Value) : List Char :=
  writeString m.1 ++ layout.colon ++ m.2.write layout level

theorem writeItems_eq_flatMap (layout : Layout) (level : Nat) (items : List Value) :
    writeItems layout level items
      = items.flatMap fun v => ',' :: layout.gap level ++ v.write layout level := by
  induction items with
  | nil => rfl
  | cons v items ih => rw [writeItems, ih, List.flatMap_cons]

theorem writeMembers_eq_flatMap (layout : Layout) (level : Nat) (members : Members) :
    writeMembers layout level members
      = members.flatMap fun m => ',' :: layout.gap level ++ writeMember layout level m := by
  induction members with
  | nil => rfl
  | cons m members ih =>
    rw [writeMembers, ih, List.flatMap_cons]
    simp [writeMember]

/-- A written member: its key, the colon and maybe blank space, and the value. -/
theorem writeMember_append (layout : Layout) (level : Nat) (m : String × Value) :
    ∃ gap, (∀ c ∈ gap, isGap c = true) ∧ ∀ rest, writeMember layout level m ++ rest
      = '"' :: (m.1.toList.flatMap escapeChar
        ++ '"' :: ':' :: (gap ++ (m.2.write layout level ++ rest))) := by
  obtain ⟨gap, hcolon, hgap⟩ := layoutColon_eq layout
  exact ⟨gap, hgap, fun rest => by simp [writeMember, writeString, hcolon]⟩

theorem member_written {depth : Nat} {layout : Layout} {level : Nat} {m : String × Value}
    {w : Value} {rest : List Char}
    (h : value depth (m.2.write layout level ++ rest) = .ok (w, rest)) :
    member (value depth) (writeMember layout level m ++ rest) = .ok ((m.1, w), rest) := by
  obtain ⟨gap, hgap, htext⟩ := writeMember_append layout level m
  refine member_eq_ok_iff.2 ⟨_, _, _, htext rest, quoted_written m.1 _, skipGap_cons rfl, ?_⟩
  rw [value_congr depth (skipGap_append hgap), h]

/-! ## What comes back -/

/-- What a value may come back as: a value that is nested as deep, and the value itself if its
    floats read back. -/
structure Value.ReturnsAs (v w : Value) : Prop where
  depth_eq : w.depth = v.depth
  eq_of_floats : v.FloatsReadBack → w = v

theorem Value.ReturnsAs.refl (v : Value) : v.ReturnsAs v := ⟨rfl, fun _ => rfl⟩

/-- An array comes back item by item. -/
theorem returnsAs_array {items items' : List Value}
    (h : List.Forall₂ Value.ReturnsAs items items') :
    (Value.array items).ReturnsAs (.array items') := by
  constructor
  · have hdepth : depthItems items' = depthItems items := by
      induction h with
      | nil => rfl
      | cons hv _ ih => rw [depthItems, depthItems, hv.depth_eq, ih]
    rw [Value.depth, Value.depth, hdepth]
  · intro hfloats
    have hread := floatsReadBack_array_iff.1 hfloats
    have hitems : items' = items := by
      induction h with
      | nil => rfl
      | cons hv _ ih =>
        rw [List.forall_mem_cons] at hread
        rw [hv.eq_of_floats hread.1, ih (floatsReadBack_array_iff.2 hread.2) hread.2]
    rw [hitems]

/-- An object comes back member by member, each under its key. -/
theorem returnsAs_object {members members' : Members}
    (h : List.Forall₂ (fun m m' => m.1 = m'.1 ∧ m.2.ReturnsAs m'.2) members members') :
    (Value.object members).ReturnsAs (.object members') := by
  constructor
  · have hdepth : depthMembers members' = depthMembers members := by
      induction h with
      | nil => rfl
      | cons hm _ ih => rw [depthMembers, depthMembers, hm.2.depth_eq, ih]
    rw [Value.depth, Value.depth, hdepth]
  · intro hfloats
    have hread := floatsReadBack_object_iff.1 hfloats
    have hmembers : members' = members := by
      induction h with
      | nil => rfl
      | cons hm _ ih =>
        rw [List.forall_mem_cons] at hread
        have hfirst := Prod.ext hm.1.symm (hm.2.eq_of_floats hread.1)
        rw [hfirst, ih (floatsReadBack_object_iff.2 hread.2) hread.2]
    rw [hmembers]

/-! ## Values -/

/-- A written value starts with a character that no bracket closes. -/
theorem write_eq_cons (layout : Layout) (level : Nat) (v : Value) :
    ∃ c t, v.write layout level = c :: t ∧ isGap c = false ∧ c ≠ ']' := by
  cases v with
  | null => exact ⟨_, _, rfl, rfl, by decide⟩
  | bool b => cases b <;> exact ⟨_, _, rfl, rfl, by decide⟩
  | number n =>
    cases hspell : n.spell with
    | nil => exact absurd hspell (spell_ne_nil n)
    | cons c t =>
      have hc : isNumeric c = true := isNumeric_spell n c (hspell ▸ List.mem_cons_self)
      refine ⟨c, t, hspell, isGap_of_isNumeric hc, ?_⟩
      rintro rfl
      cases hc
  | string s => exact ⟨'"', _, rfl, rfl, by decide⟩
  | array items => cases items <;> exact ⟨'[', _, rfl, rfl, by decide⟩
  | object members =>
    rcases members with _ | ⟨⟨k, v⟩, members⟩ <;> exact ⟨'\x7b', _, rfl, rfl, by decide⟩

/-- An array is written as a row. -/
theorem write_array_cons (layout : Layout) (level : Nat) (v : Value) (items : List Value)
    (rest : List Char) :
    (Value.array (v :: items)).write layout level ++ rest
      = '[' :: (layout.gap (level + 1) ++ (v.write layout (level + 1)
        ++ rowEnd .array (Value.write layout (level + 1)) (layout.gap (level + 1))
          (layout.gap level) items rest)) := by
  simp [Value.write, writeItems_eq_flatMap, rowEnd, Closing.array]

/-- An object is written as a row. -/
theorem write_object_cons (layout : Layout) (level : Nat) (m : String × Value)
    (members : Members) (rest : List Char) :
    (Value.object (m :: members)).write layout level ++ rest
      = '\x7b' :: (layout.gap (level + 1) ++ (writeMember layout (level + 1) m
        ++ rowEnd .object (writeMember layout (level + 1)) (layout.gap (level + 1))
          (layout.gap level) members rest)) := by
  simp [Value.write, writeMembers_eq_flatMap, writeMember, rowEnd, Closing.object]

/-- A value that was written is read again, and what follows is left over if it does not go
    on with a number. -/
theorem exists_value_write (layout : Layout) (v : Value) (level depth : Nat)
    (hdepth : v.depth ≤ depth) {rest : List Char} (hstop : Stops rest) :
    ∃ w, value depth (v.write layout level ++ rest) = .ok (w, rest) ∧ v.ReturnsAs w := by
  induction v generalizing level depth rest with
  | null => exact ⟨_, value_of_starts depth fun _ _ => .null, .refl _⟩
  | bool b =>
    cases b with
    | true => exact ⟨_, value_of_starts depth fun _ _ => .yes, .refl _⟩
    | false => exact ⟨_, value_of_starts depth fun _ _ => .no, .refl _⟩
  | number n =>
    obtain ⟨y, hy⟩ := exists_value_spell depth n hstop
    refine ⟨_, hy, rfl, fun hfloats => ?_⟩
    have hread := value_spell (hfloats.readsBack n (List.mem_singleton.2 rfl)) depth hstop
    rw [hy] at hread
    cases hread
    rfl
  | string s =>
    refine ⟨_, value_of_starts depth fun _ _ => ?_, .refl _⟩
    have hq := quoted_written s rest
    rw [Value.write, writeString, List.append_assoc, List.cons_append, skipGap_cons rfl]
    exact .string hq
  | array items ih =>
    cases depth with
    | zero => exact absurd hdepth (Nat.not_succ_le_zero _)
    | succ depth =>
      have hdeep := depth_array_le_iff.1 hdepth
      -- The items stand one level further in, and one level less is left for them.
      have hitems : ∀ v ∈ items, ReadsRelated .array (value depth)
          (Value.write layout (level + 1)) Value.ReturnsAs v := fun v hv =>
        ⟨write_eq_cons layout (level + 1) v,
          fun _ hstop => ih v hv (level + 1) depth (hdeep v hv) hstop⟩
      cases items with
      | nil =>
        refine ⟨_, valueWith_eq_ok_iff.2 ?_, .refl _⟩
        exact .array (arrayRest_eq_ok_iff.2 ⟨[], rfl, rfl⟩)
      | cons v items =>
        obtain ⟨items', hrow, hreturn⟩ := exists_row_written (isGap_layoutGap layout (level + 1))
          (isGap_layoutGap layout level) ⟨rfl, rfl⟩ (value_takesFront depth) hitems rest
        refine ⟨.array items', valueWith_eq_ok_iff.2 ?_, returnsAs_array hreturn⟩
        rw [write_array_cons, skipGap_cons rfl]
        exact .array (arrayRest_eq_ok_iff.2 ⟨_, rfl, hrow⟩)
  | object members ih =>
    cases depth with
    | zero => exact absurd hdepth (Nat.not_succ_le_zero _)
    | succ depth =>
      have hdeep := depth_object_le_iff.1 hdepth
      -- The members stand there as well, each with its key in front.
      have hmembers : ∀ m ∈ members, ReadsRelated .object (member (value depth))
          (writeMember layout (level + 1)) (fun m m' => m.1 = m'.1 ∧ m.2.ReturnsAs m'.2) m := by
        refine fun m hm => ⟨⟨'"', _, rfl, rfl, by decide⟩, fun rest hstop => ?_⟩
        obtain ⟨w, hw, hreturn⟩ := ih m hm (level + 1) depth (hdeep m hm) hstop
        exact ⟨(m.1, w), member_written hw, rfl, hreturn⟩
      cases members with
      | nil =>
        refine ⟨_, valueWith_eq_ok_iff.2 ?_, .refl _⟩
        exact .object (objectRest_eq_ok_iff.2 ⟨[], rfl, rfl⟩)
      | cons m members =>
        obtain ⟨members', hrow, hreturn⟩ := exists_row_written
          (isGap_layoutGap layout (level + 1)) (isGap_layoutGap layout level) ⟨rfl, rfl⟩
          (member_takesFront (value_takesFront depth)) hmembers rest
        refine ⟨.object members', valueWith_eq_ok_iff.2 ?_, returnsAs_object hreturn⟩
        rw [write_object_cons, skipGap_cons rfl]
        exact .object (objectRest_eq_ok_iff.2 ⟨_, rfl, hrow⟩)

/-! ## Documents -/

/-- What was read as a document repeats no key and is not nested too deep. -/
theorem keysDistinct_and_depth_le_of_parse {text : String} {v : Value}
    (h : parse text = .ok v) : v.KeysDistinct ∧ v.depth ≤ depthLimit := by
  obtain ⟨w, rest, hw, -, rfl⟩ := parse_eq_ok_iff.1 h
  -- The reader bounds the depth, and settling the keys adds none.
  exact ⟨keysDistinct_settle w,
    Nat.le_trans (depth_settle_le w) (value_depth_le depthLimit hw)⟩

/-- The text of a document is read up to its end, with enough levels for it. -/
theorem exists_value_print (layout : Layout) (v : Value) {depth : Nat} (hdepth : v.depth ≤ depth) :
    ∃ w, value depth (v.print layout).toList = .ok (w, []) ∧ v.ReturnsAs w := by
  obtain ⟨w, hw, hreturn⟩ := exists_value_write layout v 0 depth hdepth (headNot_nil isNumeric)
  rw [List.append_nil] at hw
  refine ⟨w, ?_, hreturn⟩
  rw [Value.print, String.toList_ofList]
  exact hw

/-- A document that was written reads back. -/
theorem parse_written (layout : Layout) {v : Value} (hkeys : v.KeysDistinct)
    (hdepth : v.depth ≤ depthLimit) (hfloats : v.FloatsReadBack) :
    parse (v.print layout) = .ok v := by
  obtain ⟨w, hw, hreturn⟩ := exists_value_print layout v hdepth
  obtain rfl := hreturn.eq_of_floats hfloats
  exact parse_eq_ok_iff.2 ⟨w, [], hw, rfl, (settle_of_keysDistinct hkeys).symm⟩

/-- What was written is read if and only if it is not nested too deep. -/
theorem exists_parse_print_iff (layout : Layout) {v : Value} :
    (∃ w, parse (v.print layout) = .ok w) ↔ v.depth ≤ depthLimit := by
  constructor
  · rintro ⟨_, hparse⟩
    obtain ⟨u, rest, hu, -, -⟩ := parse_eq_ok_iff.1 hparse
    have hle := value_depth_le depthLimit hu
    -- With enough levels the text reads as deep as the document, and they change nothing.
    obtain ⟨w, hw, hreturn⟩ := exists_value_print layout v (Nat.le_max_right depthLimit v.depth)
    have hdeep := value_of_depth_le (max depthLimit v.depth) hu
      (Nat.le_trans hle (Nat.le_max_left _ _))
    rw [hdeep] at hw
    cases hw
    exact hreturn.depth_eq ▸ hle
  · intro hdepth
    obtain ⟨w, hw, -⟩ := exists_value_print layout v hdepth
    exact ⟨w.settle, parse_eq_ok_iff.2 ⟨w, [], hw, rfl, rfl⟩⟩

end Stylebook.Json
