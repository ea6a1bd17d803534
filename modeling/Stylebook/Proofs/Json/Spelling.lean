/-
  Stylebook.Proofs.Json.Spelling

  Written numbers. They are spelled with digits, signs, points and exponents only,
  so a number that reads back from its text alone also does in front of a comma, a
  bracket or a line feed (`value_spell`). An integer is spelled as a numeral with
  its sign, which is read as that integer (`signedNumeral_spellInt`,
  `Numeral.toNumber?_ofInt`), so integers always read back (`readsBack_word`). That
  a float does is a hypothesis where it is needed (`FloatsReadBack`).
-/

import Stylebook.Proofs.Json.Grammar

namespace Stylebook.Json

open Stylebook.Number (Decimal shortest)

/-! ## Spelled numbers -/

theorem isNumeric_toDigits {n : Nat} : ∀ c ∈ Nat.toDigits 10 n, isNumeric c = true :=
  fun c hc => isNumeric_of_isDigit c (isDigit_toDigits n c hc)

theorem isNumeric_spellPositional {digits : List Char} {lead : Int}
    (h : ∀ c ∈ digits, isNumeric c = true) :
    ∀ c ∈ spellPositional digits lead, isNumeric c = true := by
  intro c hc
  unfold spellPositional at hc
  split at hc
  · simp only [List.mem_append, List.mem_cons, List.mem_replicate] at hc
    -- Zero, the point, zeros, the digits.
    rcases hc with (rfl | rfl | ⟨-, rfl⟩) | hc
    · rfl
    · rfl
    · rfl
    · exact h c hc
  · dsimp only at hc
    split at hc
    · simp only [List.mem_append, List.mem_cons, List.mem_replicate, List.not_mem_nil,
        or_false] at hc
      -- The digits, zeros, the point, zero.
      rcases hc with (hc | ⟨-, rfl⟩) | rfl | rfl
      · exact h c hc
      · rfl
      · rfl
      · rfl
    · -- The point stands between the digits.
      rw [List.mem_append, List.mem_cons] at hc
      rcases hc with hc | rfl | hc
      · exact h c (List.mem_of_mem_take hc)
      · rfl
      · exact h c (List.mem_of_mem_drop hc)

theorem isNumeric_spellScientific {digits : List Char} {lead : Int}
    (h : ∀ c ∈ digits, isNumeric c = true) :
    ∀ c ∈ spellScientific digits lead, isNumeric c = true := by
  intro c hc
  simp only [spellScientific, List.mem_append, List.mem_cons] at hc
  rcases hc with (hc | hc) | rfl | hc | hc
  · exact h c (List.mem_of_mem_take hc)
  · split at hc
    · cases hc
    · rcases List.mem_cons.1 hc with rfl | hc
      · rfl
      · exact h c (List.mem_of_mem_drop hc)
  · rfl
  · rw [hc]
    split <;> rfl
  · exact isNumeric_toDigits c hc

theorem isNumeric_spellDecimal (d : Decimal) :
    ∀ c ∈ spellDecimal d, isNumeric c = true := by
  unfold spellDecimal
  dsimp only
  split
  · exact isNumeric_spellPositional isNumeric_toDigits
  · exact isNumeric_spellScientific isNumeric_toDigits

/-- A number is spelled with the characters of numbers only. -/
theorem isNumeric_spell (n : Number) : ∀ c ∈ n.spell, isNumeric c = true := by
  intro c hc
  cases n with
  | word n fits =>
    rw [Number.spell, spellInt] at hc
    split at hc
    · rcases List.mem_cons.1 hc with rfl | hc
      · rfl
      · exact isNumeric_toDigits c hc
    · exact isNumeric_toDigits c hc
  | float x =>
    rw [Number.spell, spellFloat, List.mem_append] at hc
    rcases hc with hc | hc
    · split at hc
      · rw [List.mem_singleton.1 hc]
        rfl
      · cases hc
    · exact isNumeric_spellDecimal _ c hc

theorem isGap_of_isNumeric {c : Char} (h : isNumeric c = true) : isGap c = false := by
  cases hgap : isGap c with
  | false => rfl
  | true =>
    simp only [isGap, Bool.or_eq_true, beq_iff_eq] at hgap
    rcases hgap with ((rfl | rfl) | rfl) | rfl <;> cases h

theorem spellDecimal_ne_nil (d : Decimal) : spellDecimal d ≠ [] := by
  unfold spellDecimal
  dsimp only
  split
  · unfold spellPositional
    split
    · simp
    · dsimp only
      split
      · simp
      · simp
  · simp [spellScientific]

theorem spell_ne_nil (n : Number) : n.spell ≠ [] := by
  cases n with
  | word n fits =>
    rw [Number.spell, spellInt]
    split
    · simp
    · exact Nat.toDigits_ne_nil
  | float x =>
    rw [Number.spell, spellFloat]
    exact List.append_ne_nil_of_right_ne_nil _ (spellDecimal_ne_nil _)

/-! ## Numerals with their sign -/

/-- Reads a numeral with its sign. -/
def signedNumeral : Reader Numeral
  | '-' :: s => numeral true s
  | s => numeral false s

/-- A numeral starts with a digit. -/
theorem exists_digit_of_numeral {negative : Bool} {s rest : List Char} {n : Numeral}
    (h : numeral negative s = .ok (n, rest)) : ∃ c t, s = c :: t ∧ c.isDigit = true := by
  obtain ⟨whole, s₁, -, -, -, hw, -⟩ := numeral_eq_ok_iff.1 h
  obtain ⟨hwhole | ⟨c, ds, hwhole, -, hdigits⟩, hs, -⟩ := wholePart_eq_ok_iff.1 hw
  · exact ⟨'0', s₁, by rw [hs, hwhole]; rfl, rfl⟩
  · exact ⟨c, ds ++ s₁, by rw [hs, hwhole]; rfl, hdigits c (hwhole ▸ List.mem_cons_self)⟩

theorem signedNumeral_of_numeral {s rest : List Char} {n : Numeral}
    (h : numeral false s = .ok (n, rest)) : signedNumeral s = .ok (n, rest) := by
  obtain ⟨c, t, rfl, hc⟩ := exists_digit_of_numeral h
  rw [signedNumeral.eq_def]
  split
  · next heq =>
    -- The sign is not a digit.
    cases heq
    exact absurd hc (by decide)
  · exact h

/-- A signed numeral that is read as a number, as a value. -/
theorem value_of_signedNumeral (depth : Nat) {s rest : List Char} {n : Numeral} {x : Number}
    (h : signedNumeral s = .ok (n, rest)) (hx : n.toNumber? = some x) :
    value depth s = .ok (.number x, rest) := by
  refine value_of_starts depth fun array object => ?_
  rw [signedNumeral.eq_def] at h
  split at h
  · next t =>
    rw [skipGap_cons rfl]
    exact .negative (number_eq_ok_iff.2 ⟨n, x, h, hx, rfl⟩)
  · obtain ⟨c, t, rfl, hc⟩ := exists_digit_of_numeral h
    rw [skipGap_cons (isGap_of_isNumeric (isNumeric_of_isDigit c hc))]
    exact .number hc (number_eq_ok_iff.2 ⟨n, x, h, hx, rfl⟩)

/-! ## Spelled integers -/

/-- The numeral that an integer is spelled as. -/
def Numeral.ofInt (n : Int) : Numeral := ⟨decide (n < 0), Nat.toDigits 10 n.natAbs, [], none⟩

theorem signedNumeral_spellInt (n : Int) {rest : List Char} (h : Stops rest) :
    signedNumeral (spellInt n ++ rest) = .ok (Numeral.ofInt n, rest) := by
  rw [spellInt, Numeral.ofInt]
  split
  · next hneg =>
    rw [decide_eq_true hneg]
    exact numeral_whole true (isWhole_toDigits _) h
  · next hneg =>
    rw [decide_eq_false hneg]
    exact signedNumeral_of_numeral (numeral_whole false (isWhole_toDigits _) h)

/-- The numeral of an integer that a word holds is read as that integer. -/
theorem Numeral.toInt?_ofInt {n : Int} (fits : FitsWord n) : (ofInt n).toInt? = some n := by
  obtain ⟨hleast, hlimit⟩ := fits
  rw [toInt?, ofInt, if_pos ⟨rfl, rfl⟩, digitsValue_toDigits]
  by_cases hneg : n < 0
  · rw [if_pos (decide_eq_true hneg), if_pos ⟨by omega, by omega⟩, Option.some_inj]
    omega
  · rw [if_neg (by simpa using hneg), if_pos (by omega), Option.some_inj]
    omega

theorem Numeral.toNumber?_ofInt {n : Int} (fits : FitsWord n) :
    (ofInt n).toNumber? = some (.word n fits) := by
  rw [toNumber?, toInt?_ofInt fits, ← Number.int_eq_word fits]

/-! ## Numbers that read back -/

/-- A number reads back if the text it is spelled with is read as that number. -/
def Number.ReadsBack (n : Number) : Prop :=
  parse (String.ofList n.spell) = .ok (.number n)

/-- The floats of a document read back. -/
def Value.FloatsReadBack (v : Value) : Prop :=
  ∀ x, Number.float x ∈ v.numbers → (Number.float x).ReadsBack

theorem eq_number_of_settle {v : Value} {n : Number} (h : v.settle = .number n) :
    v = .number n := by
  cases v <;> simp_all [Value.settle]

/-- A number that reads back does so at any depth, in front of a text that stops it. -/
theorem value_spell {n : Number} (hn : n.ReadsBack) (depth : Nat) {rest : List Char}
    (hstop : Stops rest) : value depth (n.spell ++ rest) = .ok (.number n, rest) := by
  obtain ⟨w, spare, hw, hgap, hsettle⟩ := parse_eq_ok_iff.1 hn
  rw [String.toList_ofList] at hw
  obtain rfl := eq_number_of_settle hsettle.symm
  -- Nothing is left over, since the spelling holds no blank space.
  have hspare : spare = [] := by
    refine List.eq_nil_iff_forall_not_mem.2 fun c hc => ?_
    have hnumeric := isNumeric_spell n c ((value_takesFront _ hw).subset hc)
    have hblank := skipGap_eq_nil_iff.1 hgap c hc
    rw [isGap_of_isNumeric hnumeric] at hblank
    cases hblank
  have hread := value_append depthLimit rest hw fun _ => .inr hstop
  rw [hspare] at hread
  exact value_of_depth_le depth hread (Nat.zero_le _)

/-- An integer that a word holds reads back. -/
theorem readsBack_word {n : Int} (fits : FitsWord n) : (Number.word n fits).ReadsBack := by
  have hread := signedNumeral_spellInt n (headNot_nil isNumeric)
  rw [List.append_nil] at hread
  refine parse_eq_ok_iff.2 ⟨.number (.word n fits), [], ?_, rfl, by rw [Value.settle]⟩
  rw [String.toList_ofList, Number.spell]
  exact value_of_signedNumeral depthLimit hread (Numeral.toNumber?_ofInt fits)

/-- All numbers of a document read back if its floats do. -/
theorem Value.FloatsReadBack.readsBack {v : Value} (h : v.FloatsReadBack) :
    ∀ n ∈ v.numbers, n.ReadsBack := by
  intro n hn
  cases n with
  | word n fits => exact readsBack_word fits
  | float x => exact h x hn

theorem floatsReadBack_of_numbers {v : Value} (h : v.numbers = []) : v.FloatsReadBack := by
  intro x hx
  rw [h] at hx
  cases hx

theorem floatsReadBack_array_iff {items : List Value} :
    (Value.array items).FloatsReadBack ↔ ∀ v ∈ items, v.FloatsReadBack := by
  constructor
  · intro h v hv x hx
    exact h x (mem_numbers_array_iff.2 ⟨v, hv, hx⟩)
  · intro h x hx
    obtain ⟨v, hv, hx⟩ := mem_numbers_array_iff.1 hx
    exact h v hv x hx

theorem floatsReadBack_object_iff {members : Members} :
    (Value.object members).FloatsReadBack ↔ ∀ m ∈ members, m.2.FloatsReadBack := by
  constructor
  · intro h m hm x hx
    exact h x (mem_numbers_object_iff.2 ⟨m, hm, hx⟩)
  · intro h x hx
    obtain ⟨m, hm, hx⟩ := mem_numbers_object_iff.1 hx
    exact h m hm x hx

/-- One and a half. -/
def threeHalves : Stylebook.Number.Binary64 := ⟨false, 0x3FF8000000000000, by decide⟩

/-- A float that reads back, by evaluation of its shortest digits. -/
theorem readsBack_threeHalves : (Number.float threeHalves).ReadsBack := by
  have hspell : (Number.float threeHalves).spell = ['1', '.', '5'] := by decide +kernel
  rw [Number.ReadsBack, hspell]
  rfl

/-- A document in which this is the only float. -/
theorem floatsReadBack_of_threeHalves {v : Value}
    (h : ∀ x, Number.float x ∈ v.numbers → x = threeHalves) : v.FloatsReadBack := by
  intro x hx
  rw [h x hx]
  exact readsBack_threeHalves

end Stylebook.Json
