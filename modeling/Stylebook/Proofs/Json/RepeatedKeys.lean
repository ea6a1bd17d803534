/-
  Stylebook.Proofs.Json.RepeatedKeys

  What becomes of repeated keys, said without putting members one after another. The keys
  of collapsed members are the keys in the order in which they stand for the first time
  (`keys_collapse`), and under each of them stands the value it has last
  (`lookup_collapse`). So a settled document is the one that keeps, in each of its objects,
  at the place of a key's first occurrence only the value of its last one
  (`keepsLast_iff`), and a value that is overridden further on in its object may be any
  other value (`ChangesOverridden.settle_eq`).
-/

import Mathlib.Data.List.Forall2
import Mathlib.Data.List.Induction
import Stylebook.Proofs.Json.Tree

namespace Stylebook.Json

/-! ## Members by their keys and what stands under them -/

theorem exists_lookup_iff {members : Members} {key : String} :
    (∃ value, members.lookup key = some value) ↔ key ∈ members.map Prod.fst := by
  rw [← Option.isSome_iff_exists, List.lookup_isSome_iff, List.mem_map]
  exact exists_congr fun m => and_congr_right fun _ => beq_iff_eq.trans eq_comm

/-- A key has a last value exactly if it has one at all. -/
theorem exists_lookup_reverse_iff {members : Members} {key : String} :
    (∃ value, members.reverse.lookup key = some value) ↔ key ∈ members.map Prod.fst := by
  rw [exists_lookup_iff, List.map_reverse, List.mem_reverse]

theorem mem_of_lookup {members : Members} {key : String} {value : Value}
    (h : members.lookup key = some value) : (key, value) ∈ members := by
  obtain ⟨before, after, rfl, -⟩ := List.lookup_eq_some_iff.1 h
  exact List.mem_append_right before List.mem_cons_self

/-- Members that repeat no key are known by their keys and what stands under each. -/
theorem members_ext {members members' : Members}
    (hkeys : members.map Prod.fst = members'.map Prod.fst)
    (hnodup : (members.map Prod.fst).Nodup)
    (hlookup : ∀ key ∈ members.map Prod.fst, members.lookup key = members'.lookup key) :
    members = members' := by
  induction members generalizing members' with
  | nil => exact (List.map_eq_nil_iff.1 hkeys.symm).symm
  | cons m members ih =>
    obtain ⟨m', members', rfl, hkey, hrest⟩ := List.map_eq_cons_iff.1 hkeys.symm
    rw [List.map_cons, List.nodup_cons] at hnodup
    rw [List.map_cons, List.forall_mem_cons] at hlookup
    have hvalue : m.2 = m'.2 := by
      have hfirst := hlookup.1
      rw [lookup_cons_eq, lookup_cons_eq, if_pos rfl, if_pos hkey.symm] at hfirst
      exact Option.some.inj hfirst
    have htail : members = members' := by
      refine ih hrest.symm hnodup.2 fun key hmem => ?_
      -- Further on stands another key than the first one.
      have hne : key ≠ m.1 := fun heq => hnodup.1 (heq ▸ hmem)
      have hnext := hlookup.2 key hmem
      rwa [lookup_cons_eq, lookup_cons_eq, if_neg hne, if_neg (hkey ▸ hne)] at hnext
    rw [htail, Prod.ext hkey.symm hvalue]

/-! ## Collapsed members -/

/-- Each key stands where it stood for the first time. -/
theorem keys_collapse (members : Members) :
    (collapse members).map Prod.fst = (members.map Prod.fst).eraseDups := by
  induction members using List.reverseRecOn with
  | nil => rfl
  | append_singleton members m ih =>
    have hput : collapse (members ++ [m]) = put m.1 m.2 (collapse members) := by
      rw [collapse, List.foldl_append]
      rfl
    rw [hput, keys_put, ih, List.map_append, List.eraseDups_append]
    simp only [List.mem_eraseDups]
    split
    · next hkey => simp [List.removeAll, hkey]
    · next hkey => simp [List.removeAll, hkey, List.eraseDups_cons]

theorem keys_settleMembers (members : Members) :
    (settleMembers members).map Prod.fst = members.map Prod.fst := by
  rw [settleMembers_eq_map, List.map_map]
  rfl

theorem lookup_map_settle (members : Members) (key : String) :
    (members.map fun m => (m.1, m.2.settle)).lookup key
      = (members.lookup key).map Value.settle := by
  induction members with
  | nil => rfl
  | cons m members ih =>
    rw [List.map_cons, lookup_cons_eq, lookup_cons_eq, ih]
    split <;> rfl

/-- What stands under a key of a settled object is what stood there last, settled. -/
theorem lookup_collapse_settleMembers (members : Members) (key : String) :
    (collapse (settleMembers members)).lookup key
      = (members.reverse.lookup key).map Value.settle := by
  rw [lookup_collapse, settleMembers_eq_map, ← List.map_reverse, lookup_map_settle]

/-- A settled object is known by the keys in their first order and by the last values. -/
theorem collapse_settleMembers_eq_iff {members settled : Members} :
    settled = collapse (settleMembers members) ↔
      settled.map Prod.fst = (members.map Prod.fst).eraseDups ∧
        ∀ key ∈ settled.map Prod.fst,
          settled.lookup key = (members.reverse.lookup key).map Value.settle := by
  have hkeys : (collapse (settleMembers members)).map Prod.fst
      = (members.map Prod.fst).eraseDups := by rw [keys_collapse, keys_settleMembers]
  constructor
  · rintro rfl
    exact ⟨hkeys, fun key _ => lookup_collapse_settleMembers members key⟩
  · rintro ⟨hsame, hlookup⟩
    have hnodup := nodup_keys_collapse (settleMembers members)
    rw [hkeys, ← hsame] at hnodup
    refine members_ext (hsame.trans hkeys.symm) hnodup fun key hkey => ?_
    rw [hlookup key hkey, lookup_collapse_settleMembers]

/-- Only an object settles to an object. -/
theorem exists_object_of_settle {v : Value} {members : Members} (h : v.settle = .object members) :
    ∃ raw, v = .object raw ∧ members = collapse (settleMembers raw) := by
  cases v with
  | object raw =>
    rw [Value.settle, Value.object.injEq] at h
    exact ⟨raw, rfl, h.symm⟩
  | _ =>
    rw [Value.settle] at h
    cases h

/-! ## Documents that keep the last values -/

/-- The first document repeats keys as it may, and the second one has, in each object, each
    key once, where it stands first, with the value that it has last. -/
inductive KeepsLast : Value → Value → Prop where
  | null : KeepsLast .null .null
  | bool (b : Bool) : KeepsLast (.bool b) (.bool b)
  | number (n : Number) : KeepsLast (.number n) (.number n)
  | string (s : String) : KeepsLast (.string s) (.string s)
  | array {items items' : List Value} :
      List.Forall₂ KeepsLast items items' → KeepsLast (.array items) (.array items')
  | object {members members' : Members} :
      members'.map Prod.fst = (members.map Prod.fst).eraseDups →
      (∀ key value value', members.reverse.lookup key = some value →
        members'.lookup key = some value' → KeepsLast value value') →
      KeepsLast (.object members) (.object members')

theorem keepsLast_settle (v : Value) : KeepsLast v v.settle := by
  induction v with
  | null => exact .null
  | bool b => exact .bool b
  | number n => exact .number n
  | string s => exact .string s
  | array items ih =>
    rw [Value.settle, settleItems_eq_map]
    refine .array ?_
    rw [List.forall₂_map_right_iff]
    exact List.forall₂_same.2 ih
  | object members ih =>
    rw [Value.settle]
    obtain ⟨hkeys, -⟩ := collapse_settleMembers_eq_iff.1 (Eq.refl (collapse (settleMembers members)))
    refine .object hkeys fun key value value' hlast hvalue => ?_
    rw [lookup_collapse_settleMembers, hlast] at hvalue
    cases hvalue
    exact ih (key, value) (List.mem_reverse.1 (mem_of_lookup hlast))

theorem KeepsLast.eq_settle {v w : Value} (h : KeepsLast v w) : w = v.settle := by
  induction v generalizing w with
  | null =>
    cases h
    rfl
  | bool b =>
    cases h
    rfl
  | number n =>
    cases h
    rfl
  | string s =>
    cases h
    rfl
  | array items ih =>
    cases h with
    | array hitems =>
      rw [Value.settle, settleItems_eq_map, Value.array.injEq]
      induction hitems with
      | nil => rfl
      | cons hvalue _ ihrest =>
        rw [List.forall_mem_cons] at ih
        rw [List.map_cons, ← ih.1 hvalue, ← ihrest ih.2]
  | object members ih =>
    cases h with
    | @object _ members' hkeys hvalues =>
      rw [Value.settle, Value.object.injEq, collapse_settleMembers_eq_iff]
      refine ⟨hkeys, fun key hkey => ?_⟩
      obtain ⟨value', hvalue'⟩ := exists_lookup_iff.2 hkey
      rw [hkeys, List.mem_eraseDups] at hkey
      obtain ⟨value, hlast⟩ := exists_lookup_reverse_iff.2 hkey
      have hmem := List.mem_reverse.1 (mem_of_lookup hlast)
      rw [hvalue', hlast, ih _ hmem (hvalues key value value' hlast hvalue')]
      rfl

/-- Settling a document keeps the last values, and nothing else does. -/
theorem keepsLast_iff {v w : Value} : KeepsLast v w ↔ w = v.settle := by
  constructor
  · exact KeepsLast.eq_settle
  · rintro rfl
    exact keepsLast_settle v

/-- A document that keeps the last values settles as the one it keeps them of. -/
theorem KeepsLast.settle_eq {v w : Value} (h : KeepsLast v w) : w.settle = v.settle := by
  rw [h.eq_settle, settle_of_keysDistinct (keysDistinct_settle v)]

/-! ## Values that are overridden -/

/-- The second document differs from the first in the value of one member, which stands
    under a key that stands again further on in the same object. -/
inductive ChangesOverridden : Value → Value → Prop where
  | here {before after : Members} {key : String} {value value' : Value} :
      key ∈ after.map Prod.fst →
      ChangesOverridden (.object (before ++ (key, value) :: after))
        (.object (before ++ (key, value') :: after))
  | inItem {before after : List Value} {v w : Value} :
      ChangesOverridden v w →
      ChangesOverridden (.array (before ++ v :: after)) (.array (before ++ w :: after))
  | inMember {before after : Members} {key : String} {v w : Value} :
      ChangesOverridden v w →
      ChangesOverridden (.object (before ++ (key, v) :: after))
        (.object (before ++ (key, w) :: after))

/-- What is overridden is not there in the settled document. -/
theorem ChangesOverridden.settle_eq {v w : Value} (h : ChangesOverridden v w) :
    v.settle = w.settle := by
  induction h with
  | @here before after key value value' hkey =>
    rw [Value.settle, Value.settle, Value.object.injEq, collapse_settleMembers_eq_iff]
    obtain ⟨hkeys, hlookup⟩ := collapse_settleMembers_eq_iff.1
      (Eq.refl (collapse (settleMembers (before ++ (key, value) :: after))))
    refine ⟨?_, fun name hname => ?_⟩
    · rw [hkeys]
      simp only [List.map_append, List.map_cons]
    · -- The last value under the key stands behind both.
      obtain ⟨last, hlast⟩ := exists_lookup_reverse_iff.2 hkey
      rw [hlookup name hname]
      simp only [List.reverse_append, List.reverse_cons, List.append_assoc, List.lookup_append]
      by_cases heq : name = key
      · rw [heq, hlast]
        rfl
      · simp only [lookup_cons_eq, if_neg heq]
  | inItem _ ih =>
    rw [Value.settle, Value.settle, settleItems_eq_map, settleItems_eq_map, List.map_append,
      List.map_append, List.map_cons, List.map_cons, ih]
  | inMember _ ih =>
    rw [Value.settle, Value.settle, settleMembers_eq_map, settleMembers_eq_map, List.map_append,
      List.map_append, List.map_cons, List.map_cons, ih]

end Stylebook.Json
