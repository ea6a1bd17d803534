/-
  Stylebook.Proofs.Acceptance

  Which objects hold a record, said without the walk over their members: under each key
  that is searched stands a text, or a list of nothing but texts, if the key is there at
  all (`Kind.Accepts`). What stands under other keys does not matter, so two objects that
  agree on the searched keys are accepted alike, and their records have the same texts to
  search (`Kind.SameSearched`).
-/

import Stylebook.Proofs.RecordRoundTrip
import Stylebook.Search

namespace Stylebook

open Json (Value Members)

/-! ## Looking up -/

/-- Where no key is repeated, a look-up finds what stands there. -/
theorem lookup_eq_some_iff_mem {α β : Type} [BEq α] [LawfulBEq α] {entries : List (α × β)}
    {key : α} {b : β} (h : (entries.map Prod.fst).Nodup) :
    entries.lookup key = some b ↔ (key, b) ∈ entries := by
  induction entries with
  | nil => simp
  | cons entry entries ih =>
    obtain ⟨k, a⟩ := entry
    rw [List.map_cons, List.nodup_cons] at h
    rw [List.lookup_cons, List.mem_cons]
    cases hk : key == k with
    | true =>
      -- The key stands here, so it stands nowhere else.
      obtain rfl := eq_of_beq hk
      have hnot : (key, b) ∉ entries := fun hmem =>
        h.1 (List.mem_map.2 ⟨(key, b), hmem, rfl⟩)
      simp [hnot, eq_comm]
    | false =>
      have hne : key ≠ k := fun heq => by simp [heq] at hk
      simp [hne, ih h.2]

/-! ## Shapes -/

namespace FieldShape

/-- A value has the shape that is wanted under a key. -/
def Fits : FieldShape → Value → Prop
  | .text, value => ∃ s, value = .string s
  | .texts, value => ∃ texts : List String, value = .array (texts.map .string)

theorem notText?_eq_none_iff {value : Value} :
    notText? value = none ↔ ∃ s, value = .string s := by
  cases value <;> simp [notText?]

/-- Items are texts one by one if they are a list of texts. -/
theorem forall_string_iff {items : List Value} :
    (∀ value ∈ items, ∃ s, value = .string s) ↔
      ∃ texts : List String, items = texts.map .string := by
  induction items with
  | nil => exact ⟨fun _ => ⟨[], rfl⟩, fun _ => nofun⟩
  | cons value items ih =>
    rw [List.forall_mem_cons, ih]
    constructor
    · rintro ⟨⟨s, rfl⟩, ⟨texts, rfl⟩⟩
      exact ⟨s :: texts, rfl⟩
    · rintro ⟨texts, h⟩
      obtain ⟨s, texts, rfl, rfl, rfl⟩ := List.map_eq_cons_iff.1 h.symm
      exact ⟨⟨s, rfl⟩, texts, rfl⟩

/-- There is no complaint about a value exactly if it has the shape. -/
theorem mismatch?_eq_none_iff {shape : FieldShape} {value : Value} :
    shape.mismatch? value = none ↔ shape.Fits value := by
  cases shape with
  | text => exact notText?_eq_none_iff
  | texts =>
    cases value with
    | array items =>
      have hitems : (∀ value ∈ items, notText? value = none) ↔
          ∀ value ∈ items, ∃ s, value = .string s :=
        forall₂_congr fun _ _ => notText?_eq_none_iff
      rw [mismatch?, List.findSome?_eq_none_iff, hitems, forall_string_iff, Fits]
      simp only [Value.array.injEq]
    | _ => simp [mismatch?, Fits]

end FieldShape

/-! ## Accepted objects -/

namespace Kind

variable {k : Kind} {members : Members}

/-- An object holds a record of a kind: what stands under a searched key has the shape
    that is wanted there. -/
def Accepts (k : Kind) (members : Members) : Prop :=
  ∀ key shape value, (key, shape) ∈ k.searched → (key, value) ∈ members → shape.Fits value

theorem nodup_keys_searched (k : Kind) : (k.searched.map Prod.fst).Nodup := by
  cases k <;> decide

theorem memberMismatch?_eq_none_iff {member : String × Value} :
    k.memberMismatch? member = none ↔
      ∀ shape, (member.1, shape) ∈ k.searched → shape.Fits member.2 := by
  rw [memberMismatch?, Option.bind_eq_none_iff]
  refine forall_congr' fun shape => ?_
  rw [lookup_eq_some_iff_mem k.nodup_keys_searched, FieldShape.mismatch?_eq_none_iff]

/-- There is no complaint about an object exactly if it is accepted. -/
theorem mismatch?_eq_none_iff : k.mismatch? members = none ↔ k.Accepts members := by
  rw [mismatch?, List.findSome?_eq_none_iff, Accepts]
  constructor
  · intro h key shape value hsearched hmem
    exact memberMismatch?_eq_none_iff.1 (h (key, value) hmem) shape hsearched
  · rintro h ⟨key, value⟩ hmem
    exact memberMismatch?_eq_none_iff.2 fun shape hsearched => h key shape value hsearched hmem

end Kind

theorem Record.ofMembers_eq_ok_iff_accepts {k : Kind} {members : Members} {r : Record k} :
    Record.ofMembers k members = .ok r ↔
      k.Accepts members ∧ r = ⟨k.fieldsOf members, members⟩ := by
  rw [Record.ofMembers_eq_ok_iff, Kind.mismatch?_eq_none_iff]

/-- An object holds a record exactly if it is accepted. -/
theorem Record.exists_ofMembers_eq_ok_iff {k : Kind} {members : Members} :
    (∃ r, Record.ofMembers k members = .ok r) ↔ k.Accepts members := by
  simp only [Record.ofMembers_eq_ok_iff_accepts, exists_and_left, exists_eq, and_true]

/-! ## Objects that agree on the searched keys -/

namespace Kind

variable {k : Kind} {members members' : Members}

/-- Two objects agree on the keys that are searched: what stands under such a key in one
    of them, or that nothing stands there, is the same in the other. -/
def SameSearched (k : Kind) (members members' : Members) : Prop :=
  ∀ key ∈ k.searched.map Prod.fst, members.lookup key = members'.lookup key

theorem SameSearched.symm (h : k.SameSearched members members') :
    k.SameSearched members' members := fun key hkey => (h key hkey).symm

theorem SameSearched.accepts (h : k.SameSearched members members')
    (hkeys : (members.map Prod.fst).Nodup) (hkeys' : (members'.map Prod.fst).Nodup)
    (haccepts : k.Accepts members) : k.Accepts members' := by
  intro key shape value hsearched hmem
  have hlookup := h key (List.mem_map_of_mem hsearched)
  rw [(lookup_eq_some_iff_mem hkeys').2 hmem] at hlookup
  exact haccepts key shape value hsearched ((lookup_eq_some_iff_mem hkeys).1 hlookup)

theorem SameSearched.textAt (h : k.SameSearched members members') (key : String)
    (hkey : key ∈ k.searched.map Prod.fst) : textAt members key = textAt members' key := by
  rw [Stylebook.textAt, Stylebook.textAt, h key hkey]

theorem SameSearched.textsAt (h : k.SameSearched members members') (key : String)
    (hkey : key ∈ k.searched.map Prod.fst) : textsAt members key = textsAt members' key := by
  rw [Stylebook.textsAt, Stylebook.textsAt, h key hkey]

/-- The texts that a search looks at come from the searched keys alone. -/
theorem SameSearched.searchTexts (h : k.SameSearched members members') (key : k.Key) :
    k.searchTexts key (k.fieldsOf members) = k.searchTexts key (k.fieldsOf members') := by
  cases k with
  | style =>
    simp only [Kind.searchTexts, fieldsOf, h.textAt "name" (by decide),
      h.textAt "nameVi" (by decide), h.textAt "description" (by decide),
      h.textsAt "characteristics" (by decide), h.textsAt "bestFor" (by decide)]
  | tone =>
    simp only [Kind.searchTexts, fieldsOf, h.textAt "name" (by decide),
      h.textAt "nameVi" (by decide), h.textAt "description" (by decide)]
  | outline =>
    simp only [Kind.searchTexts, fieldsOf, h.textAt "name" (by decide),
      h.textAt "nameVi" (by decide), h.textsAt "bestFor" (by decide)]
  | industry =>
    simp only [Kind.searchTexts, fieldsOf, h.textAt "name" (by decide),
      h.textAt "id" (by decide), h.textsAt "topics" (by decide),
      h.textsAt "keywords" (by decide)]
  | blacklist =>
    simp only [Kind.searchTexts, fieldsOf, h.textAt "description" (by decide),
      h.textsAt "phrases" (by decide)]

end Kind

end Stylebook
