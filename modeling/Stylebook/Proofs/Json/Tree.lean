/-
  Stylebook.Proofs.Json.Tree

  Depth, keys and numbers of JSON trees, member by member, and what settling repeated keys
  does to them: it gives every object each key once, makes no tree deeper, and
  leaves a tree alone that repeats no key.
-/

import Stylebook.Json.Value

namespace Stylebook.Json

/-! ## Induction -/

/-- Induction over a tree, with what holds of every item of an array and of every
    member of an object. -/
@[elab_as_elim, induction_eliminator]
theorem Value.induction {P : Value → Prop} (null : P .null) (bool : ∀ b, P (.bool b))
    (number : ∀ n, P (.number n)) (string : ∀ s, P (.string s))
    (array : ∀ items, (∀ v ∈ items, P v) → P (.array items))
    (object : ∀ members, (∀ m ∈ members, P m.2) → P (.object members)) : ∀ v, P v
  | .null => null
  | .bool b => bool b
  | .number n => number n
  | .string s => string s
  | .array items => array items fun v hv => by
    have hlt := List.sizeOf_lt_of_mem hv
    exact Value.induction null bool number string array object v
  | .object members => object members fun m hm => by
    -- A member is smaller than the object, and its value smaller than the member.
    have hlt : sizeOf m.2 < sizeOf members := by
      have hm' := List.sizeOf_lt_of_mem hm
      rw [Prod.mk.sizeOf_spec] at hm'
      omega
    exact Value.induction null bool number string array object m.2

/-! ## Depth, keys and numbers, member by member -/

theorem depthItems_le_iff {items : List Value} {d : Nat} :
    depthItems items ≤ d ↔ ∀ v ∈ items, v.depth ≤ d := by
  induction items with
  | nil => simp [depthItems]
  | cons v items ih => rw [depthItems, Nat.max_le, ih, List.forall_mem_cons]

theorem depthMembers_le_iff {members : Members} {d : Nat} :
    depthMembers members ≤ d ↔ ∀ m ∈ members, m.2.depth ≤ d := by
  induction members with
  | nil => simp [depthMembers]
  | cons m members ih => rw [depthMembers, Nat.max_le, ih, List.forall_mem_cons]

theorem itemsDistinct_iff {items : List Value} :
    ItemsDistinct items ↔ ∀ v ∈ items, v.KeysDistinct := by
  induction items with
  | nil => simp [ItemsDistinct]
  | cons v items ih => simp [ItemsDistinct, ih]

theorem membersDistinct_iff {members : Members} :
    MembersDistinct members ↔ ∀ m ∈ members, m.2.KeysDistinct := by
  induction members with
  | nil => simp [MembersDistinct]
  | cons m members ih => simp [MembersDistinct, ih]

theorem depth_array_le_iff {items : List Value} {d : Nat} :
    (Value.array items).depth ≤ d + 1 ↔ ∀ v ∈ items, v.depth ≤ d := by
  rw [Value.depth, Nat.add_le_add_iff_right, depthItems_le_iff]

theorem depth_object_le_iff {members : Members} {d : Nat} :
    (Value.object members).depth ≤ d + 1 ↔ ∀ m ∈ members, m.2.depth ≤ d := by
  rw [Value.depth, Nat.add_le_add_iff_right, depthMembers_le_iff]

theorem keysDistinct_array_iff {items : List Value} :
    (Value.array items).KeysDistinct ↔ ∀ v ∈ items, v.KeysDistinct := by
  rw [Value.KeysDistinct, itemsDistinct_iff]

theorem keysDistinct_object_iff {members : Members} :
    (Value.object members).KeysDistinct ↔
      (members.map Prod.fst).Nodup ∧ ∀ m ∈ members, m.2.KeysDistinct := by
  rw [Value.KeysDistinct, membersDistinct_iff]

theorem numbersInItems_eq_flatMap (items : List Value) :
    numbersInItems items = items.flatMap Value.numbers := by
  induction items with
  | nil => rfl
  | cons v items ih => rw [numbersInItems, ih, List.flatMap_cons]

theorem numbersInMembers_eq_flatMap (members : Members) :
    numbersInMembers members = members.flatMap fun m => m.2.numbers := by
  induction members with
  | nil => rfl
  | cons m members ih => rw [numbersInMembers, ih, List.flatMap_cons]

theorem mem_numbers_array_iff {n : Number} {items : List Value} :
    n ∈ (Value.array items).numbers ↔ ∃ v ∈ items, n ∈ v.numbers := by
  rw [Value.numbers, numbersInItems_eq_flatMap, List.mem_flatMap]

theorem mem_numbers_object_iff {n : Number} {members : Members} :
    n ∈ (Value.object members).numbers ↔ ∃ m ∈ members, n ∈ m.2.numbers := by
  rw [Value.numbers, numbersInMembers_eq_flatMap, List.mem_flatMap]

/-! ## Putting a member in its place -/

theorem put_of_notMem {key : String} {value : Value} {members : Members}
    (h : key ∉ members.map Prod.fst) : put key value members = members ++ [(key, value)] := by
  induction members with
  | nil => rfl
  | cons m members ih =>
    obtain ⟨k, v⟩ := m
    simp only [List.map_cons, List.mem_cons, not_or] at h
    rw [put, if_neg (Ne.symm h.1), ih h.2, List.cons_append]

/-- Keys keep their places, and a new one goes to the end. -/
theorem keys_put (key : String) (value : Value) (members : Members) :
    (put key value members).map Prod.fst =
      if key ∈ members.map Prod.fst then members.map Prod.fst
      else members.map Prod.fst ++ [key] := by
  induction members with
  | nil => simp [put]
  | cons m members ih =>
    obtain ⟨k, v⟩ := m
    by_cases hk : k = key
    · simp [put, hk]
    · -- The key is looked for further on.
      simp only [put, if_neg hk, List.map_cons, ih, List.mem_cons, Ne.symm hk, false_or]
      split <;> simp

theorem nodup_keys_put {key : String} {value : Value} {members : Members}
    (h : (members.map Prod.fst).Nodup) : ((put key value members).map Prod.fst).Nodup := by
  rw [keys_put]
  split
  · exact h
  · next hkey =>
    refine List.nodup_append.2 ⟨h, by simp, ?_⟩
    intro k hk k' hk'
    rw [List.mem_singleton.1 hk']
    rintro rfl
    exact hkey hk

theorem mem_of_mem_put {key : String} {value : Value} {members : Members}
    {m : String × Value} (h : m ∈ put key value members) : m = (key, value) ∨ m ∈ members := by
  induction members with
  | nil => simpa [put] using h
  | cons n members ih =>
    obtain ⟨k, v⟩ := n
    by_cases hk : k = key
    · rw [put, if_pos hk, List.mem_cons] at h
      rcases h with rfl | h
      · exact .inl (by rw [hk])
      · exact .inr (List.mem_cons_of_mem _ h)
    · rw [put, if_neg hk, List.mem_cons] at h
      rcases h with rfl | h
      · exact .inr List.mem_cons_self
      · exact (ih h).imp_right (List.mem_cons_of_mem _)

/-! ## Collapsing repeated keys -/

/-- What holds of the empty object and of every member put into one holds of the
    collapsed members. -/
theorem collapse_induction {P : Members → Prop} {members : Members} (hnil : P [])
    (hput : ∀ settled, P settled → ∀ m ∈ members, P (put m.1 m.2 settled)) :
    P (collapse members) := by
  rw [collapse]
  -- Along the fold, over the members that are still to be put.
  have hfold : ∀ rest settled : Members, (∀ m ∈ rest, m ∈ members) → P settled →
      P (rest.foldl (fun settled member => put member.1 member.2 settled) settled) := by
    intro rest
    induction rest with
    | nil => exact fun _ _ h => h
    | cons m rest ih =>
      intro settled hrest h
      exact ih _ (fun n hn => hrest n (List.mem_cons_of_mem _ hn))
        (hput settled h m (hrest m List.mem_cons_self))
  exact hfold members [] (fun _ h => h) hnil

theorem nodup_keys_collapse (members : Members) : ((collapse members).map Prod.fst).Nodup :=
  collapse_induction (P := fun settled => (settled.map Prod.fst).Nodup) List.nodup_nil
    fun _ h _ _ => nodup_keys_put h

/-- Collapsing makes no new members. -/
theorem mem_of_mem_collapse {members : Members} {m : String × Value}
    (h : m ∈ collapse members) : m ∈ members := by
  refine collapse_induction (P := fun settled => ∀ n ∈ settled, n ∈ members) (by simp) ?_ m h
  intro settled hsettled n hn n' hn'
  rcases mem_of_mem_put hn' with rfl | hn'
  · exact hn
  · exact hsettled n' hn'

theorem collapse_of_nodup {members : Members} (h : (members.map Prod.fst).Nodup) :
    collapse members = members := by
  rw [collapse]
  -- Each member is new where it is put, so it goes to the end.
  have hfold : ∀ rest settled : Members, ((settled ++ rest).map Prod.fst).Nodup →
      rest.foldl (fun settled member => put member.1 member.2 settled) settled
        = settled ++ rest := by
    intro rest
    induction rest with
    | nil => simp
    | cons m rest ih =>
      intro settled hnodup
      have hkey : m.1 ∉ settled.map Prod.fst := by
        rw [List.map_append, List.nodup_append] at hnodup
        exact fun hm => hnodup.2.2 _ hm _ (List.mem_cons_self ..) rfl
      rw [List.foldl_cons, put_of_notMem hkey, ih _ (by simpa using hnodup)]
      simp
  simpa using hfold members [] h

theorem lookup_cons_eq (name : String) (m : String × Value) (members : Members) :
    (m :: members).lookup name = if name = m.1 then some m.2 else members.lookup name := by
  rw [List.lookup_cons]
  by_cases hname : name = m.1
  · rw [if_pos hname, beq_iff_eq.2 hname]
  · rw [if_neg hname, beq_eq_false_iff_ne.2 hname]

theorem lookup_put (name key : String) (value : Value) (members : Members) :
    (put key value members).lookup name =
      if name = key then some value else members.lookup name := by
  induction members with
  | nil => rw [put, lookup_cons_eq]
  | cons m members ih =>
    obtain ⟨k, v⟩ := m
    rw [put]
    by_cases hk : k = key
    · rw [if_pos hk, lookup_cons_eq, lookup_cons_eq, hk]
      -- The value that stood there is the one that is not found any more.
      split <;> rfl
    · rw [if_neg hk, lookup_cons_eq, lookup_cons_eq, ih]
      by_cases hname : name = k
      · rw [if_pos hname, if_pos hname, if_neg (hname ▸ hk)]
      · rw [if_neg hname, if_neg hname]

/-- Of the members with one key, the last one counts. -/
theorem lookup_collapse (members : Members) (name : String) :
    (collapse members).lookup name = members.reverse.lookup name := by
  -- Along the fold, what is still to be put goes before what was put.
  have hfold : ∀ rest settled : Members,
      (rest.foldl (fun settled member => put member.1 member.2 settled) settled).lookup name =
        (rest.reverse.lookup name).or (settled.lookup name) := by
    intro rest
    induction rest with
    | nil => exact fun _ => rfl
    | cons m rest ih =>
      intro settled
      rw [List.foldl_cons, ih, lookup_put, List.reverse_cons, List.lookup_append, Option.or_assoc,
        lookup_cons_eq]
      split <;> rfl
  rw [collapse, hfold, List.lookup_nil, Option.or_none]

/-! ## Settling a tree -/

theorem settleItems_eq_map (items : List Value) :
    settleItems items = items.map Value.settle := by
  induction items with
  | nil => rfl
  | cons v items ih => rw [settleItems, ih, List.map_cons]

theorem settleMembers_eq_map (members : Members) :
    settleMembers members = members.map fun m => (m.1, m.2.settle) := by
  induction members with
  | nil => rfl
  | cons m members ih => rw [settleMembers, ih, List.map_cons]

theorem keysDistinct_settle (v : Value) : v.settle.KeysDistinct := by
  induction v with
  | null => trivial
  | bool b => trivial
  | number n => trivial
  | string s => trivial
  | array items ih =>
    rw [Value.settle, keysDistinct_array_iff, settleItems_eq_map]
    intro w hw
    obtain ⟨v, hv, rfl⟩ := List.mem_map.1 hw
    exact ih v hv
  | object members ih =>
    rw [Value.settle, keysDistinct_object_iff, settleMembers_eq_map]
    refine ⟨nodup_keys_collapse _, fun n hn => ?_⟩
    obtain ⟨m, hm, rfl⟩ := List.mem_map.1 (mem_of_mem_collapse hn)
    exact ih m hm

theorem depth_settle_le (v : Value) : v.settle.depth ≤ v.depth := by
  induction v with
  | null => exact Nat.le_refl _
  | bool b => exact Nat.le_refl _
  | number n => exact Nat.le_refl _
  | string s => exact Nat.le_refl _
  | array items ih =>
    have hle := depth_array_le_iff.1 (Nat.le_refl (Value.array items).depth)
    rw [Value.settle, settleItems_eq_map]
    refine depth_array_le_iff.2 fun w hw => ?_
    obtain ⟨v, hv, rfl⟩ := List.mem_map.1 hw
    exact Nat.le_trans (ih v hv) (hle v hv)
  | object members ih =>
    have hle := depth_object_le_iff.1 (Nat.le_refl (Value.object members).depth)
    rw [Value.settle, settleMembers_eq_map]
    refine depth_object_le_iff.2 fun n hn => ?_
    obtain ⟨m, hm, rfl⟩ := List.mem_map.1 (mem_of_mem_collapse hn)
    exact Nat.le_trans (ih m hm) (hle m hm)

/-- Settling makes no new numbers. -/
theorem mem_numbers_of_mem_settle {v : Value} {n : Number} (h : n ∈ v.settle.numbers) :
    n ∈ v.numbers := by
  induction v with
  | array items ih =>
    rw [Value.settle, settleItems_eq_map, mem_numbers_array_iff] at h
    obtain ⟨w, hw, hn⟩ := h
    obtain ⟨v, hv, rfl⟩ := List.mem_map.1 hw
    exact mem_numbers_array_iff.2 ⟨v, hv, ih v hv hn⟩
  | object members ih =>
    rw [Value.settle, settleMembers_eq_map, mem_numbers_object_iff] at h
    obtain ⟨w, hw, hn⟩ := h
    obtain ⟨m, hm, rfl⟩ := List.mem_map.1 (mem_of_mem_collapse hw)
    exact mem_numbers_object_iff.2 ⟨m, hm, ih m hm hn⟩
  | _ => exact h

/-- A tree that repeats no key is settled. -/
theorem settle_of_keysDistinct {v : Value} (h : v.KeysDistinct) : v.settle = v := by
  induction v with
  | null => rfl
  | bool b => rfl
  | number n => rfl
  | string s => rfl
  | array items ih =>
    rw [keysDistinct_array_iff] at h
    rw [Value.settle, settleItems_eq_map]
    have hmap : items.map Value.settle = items.map fun v => v :=
      List.map_congr_left fun v hv => ih v hv (h v hv)
    rw [hmap, List.map_id']
  | object members ih =>
    obtain ⟨hnodup, hmembers⟩ := keysDistinct_object_iff.1 h
    have hmap : members.map (fun m => (m.1, m.2.settle)) = members.map fun m => m :=
      List.map_congr_left fun m hm => Prod.ext rfl (ih m hm (hmembers m hm))
    rw [Value.settle, settleMembers_eq_map, hmap, List.map_id', collapse_of_nodup hnodup]

end Stylebook.Json
