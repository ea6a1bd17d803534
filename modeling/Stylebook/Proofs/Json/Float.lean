/-
  Stylebook.Proofs.Json.Float

  Numbers as they are spelled and read. A decimal is spelled in three ways, by the place of its
  point and with an exponent; in each of them the numeral that is read has the value of the
  decimal and is not taken for an integer (`spellsFloat_spellDecimal`). So every number is
  spelled as a numeral with its value, and that is read as a number again
  (`signedNumeral_spell`). It need not be the same one: a float comes from binary arithmetic,
  which is near the value of the numeral.

  A numeral is read as a number that is spelled with the same value if its integer fits a word,
  or if it has at most fifteen digits and a power of ten that is itself a float
  (`Numeral.value_kept`).
-/

import Stylebook.Proofs.Json.Spelling
import Stylebook.Proofs.Number.Scaling

namespace Stylebook.Json

open Stylebook.Number (Binary64 Decimal shortest RoundsTo inUnits finiteOrdinals)

/-! ## Rows of digits -/

theorem digitsValue_append (a b : List Char) :
    digitsValue (a ++ b) = digitsValue a * 10 ^ b.length + digitsValue b := by
  rw [digitsValue, Nat.ofDigitChars_append, Nat.ofDigitChars_eq_ofDigitChars_zero, Nat.mul_comm]
  rfl

theorem digitsValue_zeros (n : Nat) : digitsValue (List.replicate n '0') = 0 := by
  rw [digitsValue, Nat.ofDigitChars_replicate_zero, Nat.mul_zero]

theorem isDigit_zeros (n : Nat) : ∀ c ∈ List.replicate n '0', c.isDigit = true := by
  intro c hc
  rw [(List.mem_replicate.1 hc).2]
  rfl

/-! ## Numerals by their parts -/

/-- A numeral with a fraction, where it is written. -/
theorem numeral_fraction (negative : Bool) {whole fraction rest : List Char}
    (hwhole : IsWhole whole) (hne : fraction ≠ [])
    (hfraction : ∀ c ∈ fraction, c.isDigit = true) (h : Stops rest) :
    numeral negative (whole ++ '.' :: (fraction ++ rest))
      = .ok (⟨negative, whole, fraction, none⟩, rest) := by
  have hdigit : HeadNot Char.isDigit rest := h.of_imp isNumeric_of_isDigit
  have hletter : HeadNot isExponentLetter rest := h.of_imp isNumeric_of_isExponentLetter
  exact numeral_eq_ok_iff.2 ⟨_, _, _, _, _,
    wholePart_eq_ok_iff.2 ⟨hwhole, rfl, headNot_cons.2 rfl⟩,
    fractionPart_eq_ok_iff.2
      (.inr ⟨_, rfl, digitRow_eq_ok_iff.2 ⟨hne, hfraction, rfl, hdigit⟩⟩),
    exponentPart_eq_ok_iff.2 (.inl ⟨rfl, rfl, hletter⟩), rfl⟩

/-- A numeral with an exponent, and a fraction if there are digits for it. -/
theorem numeral_exponent (negative below : Bool) {whole fraction digits rest : List Char}
    (hwhole : IsWhole whole) (hfraction : ∀ c ∈ fraction, c.isDigit = true)
    (hne : digits ≠ []) (hdigits : ∀ c ∈ digits, c.isDigit = true) (h : Stops rest) :
    numeral negative (whole ++ ((if fraction = [] then [] else '.' :: fraction)
        ++ 'e' :: (if below then '-' else '+') :: (digits ++ rest)))
      = .ok (⟨negative, whole, fraction, some (below, digits)⟩, rest) := by
  have hdigit : HeadNot Char.isDigit rest := h.of_imp isNumeric_of_isDigit
  have hexponent : exponentPart ('e' :: (if below then '-' else '+') :: (digits ++ rest))
      = .ok (some (below, digits), rest) := by
    refine exponentPart_eq_ok_iff.2 (.inr ⟨_, _, digits, rfl, rfl, ?_, ?_⟩)
    · cases below <;> rfl
    · cases below <;> exact digitRow_eq_ok_iff.2 ⟨hne, hdigits, rfl, hdigit⟩
  by_cases hnil : fraction = []
  · subst hnil
    exact numeral_eq_ok_iff.2 ⟨_, _, _, _, _,
      wholePart_eq_ok_iff.2 ⟨hwhole, rfl, headNot_cons.2 rfl⟩,
      fractionPart_eq_ok_iff.2 (.inl ⟨rfl, rfl, headNot_cons.2 rfl⟩), hexponent, rfl⟩
  · rw [if_neg hnil]
    exact numeral_eq_ok_iff.2 ⟨_, _, _, _, _,
      wholePart_eq_ok_iff.2 ⟨hwhole, rfl, headNot_cons.2 rfl⟩,
      fractionPart_eq_ok_iff.2 (.inr ⟨_, rfl,
        digitRow_eq_ok_iff.2 ⟨hnil, hfraction, rfl, headNot_cons.2 rfl⟩⟩), hexponent, rfl⟩

theorem toInt?_eq_none {n : Numeral} (h : n.fraction ≠ [] ∨ n.exponent ≠ none) :
    n.toInt? = none := by
  rw [Numeral.toInt?, if_neg]
  rintro ⟨hfraction, hexponent⟩
  exact h.elim (absurd hfraction) (absurd hexponent)

/-! ## Values of numerals -/

/-- The decimal that a numeral stands for. -/
def Numeral.magnitude (n : Numeral) : Decimal where
  coefficient := digitsValue (n.whole ++ n.fraction)
  exponent := exponentValue n.exponent - n.fraction.length

/-- The exact value of a numeral. -/
def Numeral.value (n : Numeral) : ℚ :=
  if n.negative then -n.magnitude.toRat else n.magnitude.toRat

theorem le_ofDigitChars (digits : List Char) (m : Nat) : m ≤ Nat.ofDigitChars 10 digits m := by
  rw [Nat.ofDigitChars_eq_ofDigitChars_zero]
  exact (Nat.le_mul_of_pos_left m (Nat.pow_pos (by decide))).trans (Nat.le_add_right _ _)

/-- Digits that a word holds all go into the significand. -/
theorem takeDigits_eq {digits : List Char} {m : Nat}
    (h : Nat.ofDigitChars 10 digits m < wordLimit) :
    takeDigits m digits = (Nat.ofDigitChars 10 digits m, []) := by
  induction digits generalizing m with
  | nil => rfl
  | cons d digits ih =>
    have hstep : Nat.ofDigitChars 10 (d :: digits) m
        = Nat.ofDigitChars 10 digits (10 * m + (d.toNat - '0'.toNat)) := by
      rw [Nat.ofDigitChars_cons]
    rw [hstep] at h ⊢
    rw [takeDigits, if_pos ((le_ofDigitChars digits _).trans_lt h), ih h]

/-- A numeral with digits that a word holds is not cut. -/
theorem Numeral.cut_eq_magnitude {n : Numeral} (h : n.magnitude.coefficient < wordLimit) :
    n.cut = n.magnitude := by
  rw [magnitude, digitsValue, Nat.ofDigitChars_append] at h
  have hwhole := takeDigits_eq ((le_ofDigitChars n.fraction _).trans_lt h)
  have hfraction := takeDigits_eq h
  rw [cut]
  simp only [hwhole, hfraction, magnitude, digitsValue, Nat.ofDigitChars_append, List.length_nil,
    Nat.cast_zero, Int.add_zero, Int.sub_zero]

/-- So what it comes to in binary arithmetic starts from its own decimal. -/
theorem Numeral.toFloat?_eq_ofDecimal? {n : Numeral} (h : n.magnitude.coefficient < wordLimit)
    (hexponent : (exponentValue n.exponent).natAbs ≤ exponentLimit) :
    n.toFloat? = Binary64.ofDecimal? n.negative n.magnitude.coefficient n.magnitude.exponent := by
  rw [toFloat?, if_pos hexponent, cut_eq_magnitude h]

/-- A numeral that spells a decimal as a float: it has the value of the decimal, and its digits
    and its exponent are read to their ends. Its exponent is negative, for a fraction that it
    has, or it is the decimal itself. -/
structure Numeral.Spells (n : Numeral) (d : Decimal) : Prop where
  not_int : n.toInt? = none
  toRat_eq : n.magnitude.toRat = d.toRat
  coefficient_lt : n.magnitude.coefficient < wordLimit
  exponent_le : (exponentValue n.exponent).natAbs ≤ exponentLimit
  magnitude_eq : 0 ≤ n.magnitude.exponent → n.magnitude = d

/-- A numeral that spells the shortest decimal of a float is read as a float. -/
theorem Numeral.Spells.exists_toNumber? {n : Numeral} {o : Nat} (h : n.Spells (shortest o))
    (ho : o < finiteOrdinals) : ∃ y, n.toNumber? = some (.float y) := by
  have hread : ∃ y, n.toFloat? = some y := by
    rw [toFloat?_eq_ofDecimal? h.coefficient_lt h.exponent_le]
    rcases lt_or_ge n.magnitude.exponent 0 with hneg | hnonneg
    · exact Binary64.exists_ofDecimal?_of_neg n.negative h.coefficient_lt hneg
    · rw [h.magnitude_eq hnonneg]
      exact Binary64.exists_ofDecimal?_shortest n.negative ho
  obtain ⟨y, hy⟩ := hread
  exact ⟨y, by rw [toNumber?, h.not_int, hy]; rfl⟩

/-! ## Decimals -/

/-- Digits of a number above zero: there is one, and the first is not a zero. -/
structure LeadingDigits (ds : List Char) : Prop where
  digits : ∀ c ∈ ds, c.isDigit = true
  head : ∃ c t, ds = c :: t ∧ c ≠ '0'

section Leading

variable {ds rest : List Char} {lead : Int}

theorem leadingDigits_toDigits {n : Nat} (hn : 0 < n) : LeadingDigits (Nat.toDigits 10 n) :=
  ⟨isDigit_toDigits n, toDigits_eq_cons hn⟩

theorem LeadingDigits.isWhole (hds : LeadingDigits ds) : IsWhole ds := by
  obtain ⟨c, t, rfl, hc⟩ := hds.head
  exact .inr ⟨c, t, rfl, hc, hds.digits⟩

theorem LeadingDigits.append (hds : LeadingDigits ds) {ds' : List Char}
    (hds' : ∀ c ∈ ds', c.isDigit = true) : LeadingDigits (ds ++ ds') := by
  obtain ⟨c, t, rfl, hc⟩ := hds.head
  refine ⟨fun d hd => ?_, c, t ++ ds', rfl, hc⟩
  exact (List.mem_append.1 hd).elim (hds.digits d) (hds' d)

theorem LeadingDigits.take (hds : LeadingDigits ds) (n : Nat) :
    LeadingDigits (ds.take (n + 1)) := by
  obtain ⟨c, t, rfl, hc⟩ := hds.head
  exact ⟨fun d hd => hds.digits d (List.mem_of_mem_take hd), c, t.take n, rfl, hc⟩

theorem LeadingDigits.ne_nil (hds : LeadingDigits ds) : ds ≠ [] := by
  obtain ⟨c, t, rfl, -⟩ := hds.head
  exact List.cons_ne_nil c t

/-- A text that is read as a numeral which spells a decimal. -/
def SpellsFloat (negative : Bool) (text rest : List Char) (d : Decimal) : Prop :=
  ∃ n : Numeral, numeral negative (text ++ rest) = .ok (n, rest) ∧ n.negative = negative ∧
    n.Spells d

/-- Digits with a point between them. -/
theorem spellsFloat_fraction (negative : Bool) {whole fraction : List Char} {d : Decimal}
    (hwhole : IsWhole whole) (hne : fraction ≠ []) (hfraction : ∀ c ∈ fraction, c.isDigit = true)
    (hlt : digitsValue (whole ++ fraction) < wordLimit)
    (hvalue : digitsValue (whole ++ fraction) * 10 ^ (-(fraction.length : Int)) = d.toRat)
    (h : Stops rest) : SpellsFloat negative (whole ++ '.' :: fraction) rest d := by
  have hlength := List.length_pos_iff.2 hne
  refine ⟨⟨negative, whole, fraction, none⟩, ?_, rfl, toInt?_eq_none (.inl hne), ?_, hlt,
    Nat.zero_le _, fun hexponent => ?_⟩
  · rw [List.append_assoc, List.cons_append]
    exact numeral_fraction negative hwhole hne hfraction h
  · rw [Numeral.magnitude, Decimal.toRat, exponentValue, Int.zero_sub, hvalue]
  · -- The fraction leaves a negative exponent.
    rw [Numeral.magnitude, exponentValue] at hexponent
    dsimp only at hexponent
    omega

/-- Digits with a point: before it zero, or digits with zeros behind, or some of the digits. -/
theorem spellsFloat_spellPositional (negative : Bool) (hds : LeadingDigits ds)
    (hlt : digitsValue ds < 10 ^ ds.length) (hword : digitsValue ds < wordLimit)
    (hlead : lead ≤ greatestPositional) (h : Stops rest) :
    SpellsFloat negative (spellPositional ds lead) rest ⟨digitsValue ds, lead + 1 - ds.length⟩ := by
  have hzero : digitsValue ['0'] = 0 := rfl
  rw [spellPositional]
  split
  · next hneg =>
    have hdigits : ∀ c ∈ List.replicate (-lead - 1).toNat '0' ++ ds, c.isDigit = true :=
      fun c hc => (List.mem_append.1 hc).elim (isDigit_zeros _ c) (hds.digits c)
    have hvalue : digitsValue (['0'] ++ (List.replicate (-lead - 1).toNat '0' ++ ds))
        = digitsValue ds := by
      rw [digitsValue_append, digitsValue_append, digitsValue_zeros, hzero, Nat.zero_mul,
        Nat.zero_mul, Nat.zero_add, Nat.zero_add]
    have hexponent : -((List.replicate (-lead - 1).toNat '0' ++ ds).length : Int)
        = lead + 1 - ds.length := by
      rw [List.length_append, List.length_replicate]
      omega
    show SpellsFloat negative (['0'] ++ '.' :: (List.replicate (-lead - 1).toNat '0' ++ ds)) rest _
    refine spellsFloat_fraction negative (.inl rfl)
      (List.append_ne_nil_of_right_ne_nil _ hds.ne_nil) hdigits ?_ ?_ h
    · rwa [hvalue]
    · rw [hvalue, hexponent, Decimal.toRat]
  · next hnonneg =>
    dsimp only
    split
    · next hle =>
      -- Zeros up to the point, and one behind it.
      have hwhole := (hds.append (isDigit_zeros (lead.toNat + 1 - ds.length))).isWhole
      have hvalue : digitsValue (ds ++ List.replicate (lead.toNat + 1 - ds.length) '0' ++ ['0'])
          = digitsValue ds * 10 ^ (lead.toNat + 1 - ds.length) * 10 := by
        rw [digitsValue_append, digitsValue_append, digitsValue_zeros, hzero,
          List.length_replicate, List.length_singleton, Nat.add_zero, Nat.add_zero, Nat.pow_one]
      refine spellsFloat_fraction negative hwhole (List.cons_ne_nil '0' []) (isDigit_zeros 1)
        ?_ ?_ h
      · have hpow : 10 ^ (lead.toNat + 1) ≤ 10 ^ 16 := by
          refine Nat.pow_le_pow_right (by decide) ?_
          rw [greatestPositional] at hlead
          omega
        have hshort : digitsValue ds * 10 ^ (lead.toNat + 1 - ds.length)
            < 10 ^ (lead.toNat + 1) := by
          calc digitsValue ds * 10 ^ (lead.toNat + 1 - ds.length)
              < 10 ^ ds.length * 10 ^ (lead.toNat + 1 - ds.length) :=
                Nat.mul_lt_mul_of_pos_right hlt (Nat.pow_pos (by decide))
            _ = 10 ^ (lead.toNat + 1) := by rw [← Nat.pow_add, Nat.add_sub_cancel' hle]
        rw [hvalue, wordLimit]
        omega
      · have hlead : lead + 1 - ds.length = (lead.toNat + 1 - ds.length : Nat) := by omega
        rw [hvalue, Decimal.toRat, hlead, zpow_natCast, List.length_singleton, Nat.cast_one,
          zpow_neg_one]
        push_cast
        ring
    · next hgt =>
      have hdrop : ds.drop (lead.toNat + 1) ≠ [] := by
        rw [Ne, List.drop_eq_nil_iff]
        omega
      have hexponent : -((ds.drop (lead.toNat + 1)).length : Int) = lead + 1 - ds.length := by
        rw [List.length_drop]
        omega
      refine spellsFloat_fraction negative (hds.take lead.toNat).isWhole hdrop
        (fun c hc => hds.digits c (List.mem_of_mem_drop hc)) ?_ ?_ h
      · rwa [List.take_append_drop]
      · rw [List.take_append_drop, hexponent, Decimal.toRat]

/-- Digits with the point behind the first one, and an exponent. -/
theorem spellsFloat_spellScientific (negative : Bool) (hds : LeadingDigits ds)
    (hword : digitsValue ds < wordLimit) (hlead : lead.natAbs ≤ exponentLimit) (h : Stops rest) :
    SpellsFloat negative (spellScientific ds lead) rest ⟨digitsValue ds, lead + 1 - ds.length⟩ := by
  have hfraction : ∀ c ∈ ds.drop 1, c.isDigit = true :=
    fun c hc => hds.digits c (List.mem_of_mem_drop hc)
  have hread := numeral_exponent negative (decide (lead < 0)) (hds.take 0).isWhole hfraction
    Nat.toDigits_ne_nil (isDigit_toDigits lead.natAbs) h
  have hvalue : exponentValue (some (decide (lead < 0), Nat.toDigits 10 lead.natAbs)) = lead := by
    by_cases hneg : lead < 0
    · rw [decide_eq_true hneg, exponentValue, digitsValue_toDigits]
      omega
    · rw [decide_eq_false hneg, exponentValue, digitsValue_toDigits]
      omega
  have hmagnitude : (Numeral.mk negative (ds.take 1) (ds.drop 1)
      (some (decide (lead < 0), Nat.toDigits 10 lead.natAbs))).magnitude
        = ⟨digitsValue ds, lead + 1 - ds.length⟩ := by
    have hlength := List.length_pos_iff.2 hds.ne_nil
    have hexponent : lead - ((ds.drop 1).length : Int) = lead + 1 - ds.length := by
      rw [List.length_drop]
      omega
    rw [Numeral.magnitude, List.take_append_drop, hvalue, hexponent]
  refine ⟨⟨negative, ds.take 1, ds.drop 1, some (decide (lead < 0), Nat.toDigits 10 lead.natAbs)⟩,
    ?_, rfl, toInt?_eq_none (.inr (Option.some_ne_none _)), ?_, ?_, ?_, fun _ => hmagnitude⟩
  · have hpoint : (if ds.length ≤ 1 then [] else '.' :: ds.drop 1)
        = if ds.drop 1 = [] then [] else '.' :: ds.drop 1 := by
      simp only [List.drop_eq_nil_iff]
    have hsign : (if lead < 0 then '-' else '+')
        = if decide (lead < 0) = true then '-' else '+' := by
      simp only [decide_eq_true_eq]
    rw [spellScientific, hpoint, hsign]
    simpa using hread
  · rw [hmagnitude]
  · rw [hmagnitude]
    exact hword
  · rw [hvalue]
    exact hlead

end Leading

/-- How the shortest decimal of a float is spelled. -/
theorem spellsFloat_spellDecimal (negative : Bool) {o : Nat} (ho : o < finiteOrdinals)
    {rest : List Char} (h : Stops rest) :
    SpellsFloat negative (spellDecimal (shortest o)) rest (shortest o) := by
  obtain ⟨hcoefficient, hlow, hhigh⟩ := Number.shortest_bounds ho
  have hzero := Number.exponent_shortest_eq_zero ho
  generalize shortest o = d at hcoefficient hlow hhigh hzero ⊢
  obtain ⟨c, e⟩ := d
  dsimp only at hcoefficient hlow hhigh hzero
  rcases Nat.eq_zero_or_pos c with rfl | hc
  · obtain rfl : e = 0 := hzero rfl
    have hvalue : digitsValue (['0'] ++ ['0']) = 0 := rfl
    show SpellsFloat negative (['0'] ++ '.' :: ['0']) rest ⟨0, 0⟩
    refine spellsFloat_fraction negative (.inl rfl) (List.cons_ne_nil '0' []) (isDigit_zeros 1)
      ?_ ?_ h
    · rw [hvalue]
      decide
    · rw [hvalue, Nat.cast_zero, zero_mul, Decimal.toRat, Nat.cast_zero, zero_mul]
  · have hds := leadingDigits_toDigits hc
    obtain ⟨hleast, hlt⟩ := Number.pow_length_toDigits hc
    have hvalue := digitsValue_toDigits c
    have hword : c < wordLimit := hcoefficient.trans_lt (by decide)
    have hlength : 0 < (Nat.toDigits 10 c).length := List.length_pos_iff.2 hds.ne_nil
    have hshort : (Nat.toDigits 10 c).length ≤ 18 := by
      by_contra hlong
      have hpow : 10 ^ 18 ≤ 10 ^ ((Nat.toDigits 10 c).length - 1) :=
        Nat.pow_le_pow_right (by decide) (by omega)
      omega
    rw [spellDecimal]
    dsimp only
    generalize Nat.toDigits 10 c = ds at hds hlt hvalue hlength hshort ⊢
    have hdecimal : Decimal.mk c e
        = ⟨digitsValue ds, e + (ds.length - 1 : Nat) + 1 - ds.length⟩ := by
      rw [hvalue, Decimal.mk.injEq]
      exact ⟨rfl, by omega⟩
    rw [← hvalue] at hlt hword
    split
    · next hplaces =>
      rw [hdecimal]
      exact spellsFloat_spellPositional negative hds hlt hword hplaces.2 h
    · rw [hdecimal]
      refine spellsFloat_spellScientific negative hds hword ?_ h
      rw [exponentLimit]
      omega

/-! ## Numerals and the numbers that they are read as -/

theorem toRat_magnitude_plain (negative : Bool) (whole : List Char) :
    (Numeral.mk negative whole [] none).magnitude.toRat = digitsValue whole := by
  have hexponent : exponentValue none - (([] : List Char).length : Int) = 0 := rfl
  rw [Numeral.magnitude, Decimal.toRat, List.append_nil, hexponent, zpow_zero, mul_one]

/-- The value that a number is spelled with. -/
def Number.value : Number → ℚ
  | .word n _ => n
  | .float x => if x.negative then -(shortest x.ordinal).toRat else (shortest x.ordinal).toRat

/-- An integer is the value of its numeral. -/
theorem toInt?_eq_some {n : Numeral} {i : Int} (h : n.toInt? = some i) :
    FitsWord i ∧ n.value = i := by
  obtain ⟨negative, whole, fraction, exponent⟩ := n
  rw [Numeral.toInt?] at h
  split at h
  · next hplain =>
    obtain ⟨rfl, rfl⟩ : fraction = [] ∧ exponent = none := hplain
    rw [Numeral.value, toRat_magnitude_plain]
    dsimp only at h ⊢
    have hlimits : (0 : Int) < negativeLimit ∧ (0 : Int) < wordLimit := by decide
    split at h
    · next hnegative =>
      split at h
      · next hrange =>
        cases h
        refine ⟨⟨by omega, by omega⟩, ?_⟩
        rw [if_pos hnegative]
        push_cast
        rfl
      · cases h
    · next hnegative =>
      split at h
      · next hrange =>
        cases h
        refine ⟨⟨by omega, by omega⟩, ?_⟩
        rw [if_neg hnegative]
        push_cast
        rfl
      · cases h
  · cases h

/-- A number is spelled as a numeral with its value, which is read as a number. -/
theorem signedNumeral_spell (x : Number) {rest : List Char} (h : Stops rest) :
    ∃ (n : Numeral) (y : Number), signedNumeral (x.spell ++ rest) = .ok (n, rest) ∧
      n.toNumber? = some y ∧ n.value = x.value := by
  cases x with
  | word i fits =>
    have hvalue := (toInt?_eq_some (Numeral.toInt?_ofInt fits)).2
    exact ⟨_, _, signedNumeral_spellInt i h, Numeral.toNumber?_ofInt fits, hvalue⟩
  | float x =>
    obtain ⟨n, hread, hnegative, hspells⟩ := spellsFloat_spellDecimal x.negative x.ordinal_lt h
    obtain ⟨y, hy⟩ := hspells.exists_toNumber? x.ordinal_lt
    refine ⟨n, .float y, ?_, hy, ?_⟩
    · rw [Number.spell, spellFloat, List.append_assoc]
      cases hx : x.negative with
      | false =>
        rw [hx] at hread
        exact signedNumeral_of_numeral hread
      | true =>
        rw [hx] at hread
        exact hread
    · rw [Numeral.value, Number.value, hnegative, hspells.toRat_eq]

/-- What is written of a number is read as a number. -/
theorem exists_value_spell (depth : Nat) (x : Number) {rest : List Char} (h : Stops rest) :
    ∃ y, value depth (x.spell ++ rest) = .ok (.number y, rest) := by
  obtain ⟨n, y, hread, hy, -⟩ := signedNumeral_spell x h
  exact ⟨y, value_of_signedNumeral depth hread hy⟩

/-! ## Values that are kept -/

/-- A numeral of an integer that a word holds, or with at most fifteen digits and a power of ten
    that is a float. -/
def Numeral.Modest (n : Numeral) : Prop :=
  n.toInt? ≠ none ∨ n.magnitude.coefficient < 10 ^ 15 ∧ n.magnitude.exponent.natAbs ≤ 22

/-- The value of a float's shortest decimal, if it comes from a modest one. -/
theorem shortest_toRat_of_modest {d : Decimal} {o : Nat} (ho : o < finiteOrdinals)
    (hdigits : d.coefficient < 10 ^ 15) (hexponent : d.exponent.natAbs ≤ 22)
    (h : RoundsTo (inUnits d.toRat) o) : (shortest o).toRat = d.toRat := by
  rcases Nat.eq_zero_or_pos d.coefficient with hzero | hpos
  · have hvalue : d.toRat = 0 := by rw [Decimal.toRat, hzero, Nat.cast_zero, zero_mul]
    rw [hvalue, inUnits, zero_mul] at h
    obtain rfl : o = 0 := h.unique (.zero_of_le (by norm_num))
    rw [hvalue, shortest, if_pos rfl, Decimal.toRat, Nat.cast_zero, zero_mul]
  · have hlarge : (10 : ℚ) ^ (-307 : Int) ≤ d.toRat :=
      calc (10 : ℚ) ^ (-307 : Int) ≤ 10 ^ d.exponent :=
            zpow_le_zpow_right₀ (by norm_num) (by omega)
        _ ≤ d.toRat := le_mul_of_one_le_left (by positivity) (Nat.one_le_cast.2 hpos)
    exact Number.shortest_toRat_eq hdigits (Number.block_le_of_roundsTo hlarge h) ho h

/-- A numeral with few digits and a small exponent is read as the float that its value rounds
    to. -/
theorem Numeral.roundsTo_of_toFloat? {n : Numeral} {y : Binary64}
    (hdigits : n.magnitude.coefficient < 10 ^ 15) (hexponent : n.magnitude.exponent.natAbs ≤ 22)
    (hy : n.toFloat? = some y) :
    y.negative = n.negative ∧ RoundsTo (inUnits n.magnitude.toRat) y.ordinal := by
  have hword : n.magnitude.coefficient < wordLimit := hdigits.trans (by decide)
  by_cases hlimit : (exponentValue n.exponent).natAbs ≤ exponentLimit
  · rw [toFloat?_eq_ofDecimal? hword hlimit] at hy
    exact (Binary64.ofDecimal?_eq_some_iff_of_exact (hdigits.trans (by decide)) hexponent).1 hy
  · -- Past the limit only a power above one is left, so there is no digit but zero.
    have hpower : ¬ exponentValue n.exponent < 0 := by
      rw [magnitude] at hexponent
      rw [exponentLimit] at hlimit
      dsimp only at hexponent
      omega
    rw [toFloat?, if_neg hlimit, cut_eq_magnitude hword] at hy
    split at hy
    · next hor =>
      have hzero := hor.resolve_right hpower
      cases hy
      refine ⟨rfl, ?_⟩
      rw [Decimal.toRat, hzero, Nat.cast_zero, zero_mul, inUnits, zero_mul]
      exact .zero_of_le (by norm_num)
    · cases hy

/-- A modest numeral is read as a number that is spelled with the same value. -/
theorem Numeral.value_kept {n : Numeral} {x : Number} (hn : n.Modest)
    (hx : n.toNumber? = some x) : x.value = n.value := by
  cases hint : n.toInt? with
  | some i =>
    obtain ⟨fits, hvalue⟩ := toInt?_eq_some hint
    rw [toNumber?, hint] at hx
    cases hx
    rw [Number.int_eq_word fits, Number.value, hvalue]
  | none =>
    obtain ⟨hdigits, hexponent⟩ := hn.resolve_left (absurd hint)
    rw [toNumber?, hint, Option.map_eq_some_iff] at hx
    obtain ⟨y, hy, rfl⟩ := hx
    obtain ⟨hnegative, hrounds⟩ := roundsTo_of_toFloat? hdigits hexponent hy
    rw [Number.value, value, hnegative,
      shortest_toRat_of_modest y.ordinal_lt hdigits hexponent hrounds]

end Stylebook.Json
