/-
  Stylebook.Proofs.NumbersKept

  The numbers of a record, from the text that it was read from to the text that is written of
  it. At every place with a numeral in the one text stands a numeral in the other, which has
  the value of the number that the first one is read as (`numbers_stay_in_place`). So a numeral
  keeps its value if its number is spelled with it: an integer that a word holds, and a
  fraction with at most fifteen digits and a small exponent. Others are written with the value
  of a float near them (`long_integer_not_kept`).
-/

import Stylebook.Proofs.Json.Literals
import Stylebook.Proofs.RecordRoundTrip

namespace Stylebook

open Json (Layout Members Numeral Step Value numeralAt)

/-- A numeral that is written where another was read: it has the value of the number that the
    other one is read as, and that is the value of the other one if that was modest. -/
structure Json.Numeral.WrittenFor (n n' : Numeral) : Prop where
  read : ∃ x, n.toNumber? = some x ∧ n'.value = x.value
  kept : n.Modest → n'.value = n.value

/-- The numbers of a record stay in their places: what is written of a record has a numeral at
    a place if and only if the text has one that the record was read from, and writes there
    the number that was read. -/
theorem numbers_stay_in_place {k : Kind} {text : String} {r : Record k}
    (h : Record.parse k text = .ok r) (layout : Layout) (place : List Step) :
    Option.Rel Numeral.WrittenFor (numeralAt text.toList place)
      (numeralAt (r.toJson.print layout).toList place) := by
  obtain ⟨members, hparse, hmembers⟩ := Record.parse_eq_ok_iff.1 h
  obtain ⟨hkeys, hdepth⟩ := Json.keysDistinct_and_depth_le_of_parse hparse
  have hraw : r.toJson = .object members := by
    rw [Record.toJson, Record.raw_of_ofMembers hmembers]
  rw [hraw]
  -- Both texts have their numerals where the object has its numbers.
  have hread := Json.numberAt?_parse hparse place
  have hwritten := Json.numberAt?_print hkeys hdepth layout place
  generalize (Value.object members).numberAt? place = x, numeralAt text.toList place = n,
    numeralAt ((Value.object members).print layout).toList place = n' at hread hwritten ⊢
  cases hread with
  | none =>
    cases hwritten
    exact .none
  | some hx =>
    cases hwritten with
    | some hvalue =>
      exact .some ⟨⟨_, hx, hvalue⟩, fun hn => hvalue.trans (Numeral.value_kept hn hx)⟩

/-- The fraction of a sample, in a spelling of its own, keeps its value. -/
theorem numbers_stay_in_place_sample :
    ∃ n, numeralAt ((Value.object settledTone).print .pretty).toList [.key "x", .item 0] = some n ∧
      n.value = 3 / 2 := by
  have hplace := numbers_stay_in_place parse_settledTone .pretty [.key "x", .item 0]
  -- The numeral that stands in the text.
  have hread : numeralAt
      " \x7b\"name\": null, \"x\":[ 15E-1 ],\"name\" :\"\\u0061\\/b\"\x7d\n".toList
      [.key "x", .item 0] = some ⟨false, ['1', '5'], [], some (true, ['1'])⟩ := by
    simp only [String.reduceToList]
    rfl
  have hmagnitude : (Numeral.mk false ['1', '5'] [] (some (true, ['1']))).magnitude.toRat
      = 3 / 2 := by
    have hdecimal : (Numeral.mk false ['1', '5'] [] (some (true, ['1']))).magnitude = ⟨15, -1⟩ :=
      rfl
    rw [hdecimal, Number.Decimal.toRat]
    norm_num
  have hmodest : (Numeral.mk false ['1', '5'] [] (some (true, ['1']))).Modest :=
    .inr ⟨by decide, by decide⟩
  rw [hread] at hplace
  generalize hwritten : numeralAt _ _ = n at hplace
  cases hplace with
  | some hn =>
    refine ⟨_, hwritten, (hn.kept hmodest).trans ?_⟩
    rw [Numeral.value, if_neg Bool.false_ne_true, hmagnitude]

/-- The text of a record with an integer that no word holds. -/
def longInteger : String := "\x7b\"x\":100000000000000000001\x7d"

/-- The object in it, with the float next to the integer. -/
def roundedInteger : Members := [("x", .number (.float ⟨false, 0x4415AF1D78B58C40, by decide⟩))]

theorem parse_longInteger :
    Record.parse .tone longInteger = .ok ⟨Kind.tone.fieldsOf roundedInteger, roundedInteger⟩ := by
  refine Record.parse_eq_ok_iff.2 ⟨roundedInteger, ?_, rfl⟩
  simp only [Json.parse, longInteger, String.reduceToList]
  rfl

theorem compact_roundedInteger :
    (Value.object roundedInteger).compact = "\x7b\"x\":1e+20\x7d" := by
  decide +kernel

/-- An integer that no word holds is read as a float, and written with the value of that. -/
theorem long_integer_not_kept :
    ∃ r : Record .tone, Record.parse .tone longInteger = .ok r ∧
      r.toJson.compact = "\x7b\"x\":1e+20\x7d" ∧
      (numeralAt longInteger.toList [.key "x"]).map Numeral.value
        = some 100000000000000000001 ∧
      (numeralAt r.toJson.compact.toList [.key "x"]).map Numeral.value
        = some 100000000000000000000 := by
  have hread : numeralAt longInteger.toList [.key "x"]
      = some ⟨false, Nat.toDigits 10 100000000000000000001, [], none⟩ := by
    simp only [longInteger, String.reduceToList]
    rfl
  have hwritten : numeralAt "\x7b\"x\":1e+20\x7d".toList [.key "x"]
      = some ⟨false, ['1'], [], some (false, ['2', '0'])⟩ := by
    simp only [String.reduceToList]
    rfl
  refine ⟨_, parse_longInteger, compact_roundedInteger, ?_, ?_⟩
  · have hmagnitude : (Numeral.mk false (Nat.toDigits 10 100000000000000000001) [] none).magnitude
        = ⟨100000000000000000001, 0⟩ := rfl
    rw [hread, Option.map_some, Numeral.value, if_neg Bool.false_ne_true, hmagnitude,
      Number.Decimal.toRat]
    norm_num
  · have hmagnitude : (Numeral.mk false ['1'] [] (some (false, ['2', '0']))).magnitude
        = ⟨1, 20⟩ := rfl
    rw [Record.toJson, compact_roundedInteger, hwritten, Option.map_some, Numeral.value,
      if_neg Bool.false_ne_true, hmagnitude, Number.Decimal.toRat]
    norm_num

end Stylebook
