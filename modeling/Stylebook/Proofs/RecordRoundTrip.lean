/-
  Stylebook.Proofs.RecordRoundTrip

  Records are kept as they are written. A record that was read from the text of an
  object holds that object, and writing it gives the text back; reading what was
  written, in either layout, gives the same record. Whatever the text was that a
  record came from, with repeated keys, blank space and escapes, what is written of
  the record is read as the same record (`record_written_reads_back`).
-/

import Stylebook.Proofs.Json.RoundTrip
import Stylebook.Record

namespace Stylebook

open Json (Value Members Layout depthLimit)

namespace Record

variable {k : Kind}

theorem ofMembers_eq_ok_iff {members : Members} {r : Record k} :
    ofMembers k members = .ok r ↔
      k.mismatch? members = none ∧ r = ⟨k.fieldsOf members, members⟩ := by
  rw [ofMembers]
  split
  · next m hm => simp [hm]
  · next hm => simp [hm, eq_comm]

/-- A record keeps the object that it was read from. -/
theorem raw_of_ofMembers {members : Members} {r : Record k} (h : ofMembers k members = .ok r) :
    r.raw = members := by
  obtain ⟨-, rfl⟩ := ofMembers_eq_ok_iff.1 h
  rfl

/-- A value holds a record if it is the object that the record keeps. -/
theorem ofValue_eq_ok_iff {v : Value} {r : Record k} :
    ofValue k v = .ok r ↔ v = r.toJson ∧ ofMembers k r.raw = .ok r := by
  cases v with
  | object members =>
    rw [ofValue, toJson, Value.object.injEq]
    constructor
    · intro h
      have hraw := raw_of_ofMembers h
      exact ⟨hraw.symm, hraw.symm ▸ h⟩
    · rintro ⟨rfl, h⟩
      exact h
  | _ => simp [ofValue, toJson]

/-- A record is in a text if the document is an object that holds it. -/
theorem parse_eq_ok_iff {text : String} {r : Record k} :
    parse k text = .ok r ↔
      ∃ members, Json.parse text = .ok (.object members) ∧ ofMembers k members = .ok r :=
  Json.parseObject_eq_ok_iff

/-- A record whose object is like one that was read is read from what is written of
    it. -/
theorem parse_print {members : Members} {r : Record k} (h : ofMembers k members = .ok r)
    (hkeys : (Value.object members).KeysDistinct)
    (hdepth : (Value.object members).depth ≤ depthLimit)
    (hfloats : (Value.object members).FloatsReadBack) (layout : Layout) :
    parse k ((Value.object members).print layout) = .ok r :=
  parse_eq_ok_iff.2 ⟨members, Json.parse_written layout hkeys hdepth hfloats, h⟩

end Record

/-- Reading undoes writing, and writing undoes reading, for the records of every kind:

    * an object that repeats no key, is not nested too deep and holds the record `r`
      reads as `r` from its text; `r` holds the object and is written as that text,
      and what is written of `r` in either layout reads as `r`;
    * what is written of a record that came from any text at all is read again, and
      written again it is the same text. -/
theorem record_written_reads_back (k : Kind) :
    (∀ (o : Members) (r : Record k), (Value.object o).KeysDistinct →
      (Value.object o).depth ≤ 127 → (Value.object o).FloatsReadBack →
      Record.ofMembers k o = .ok r →
        Record.parse k (Value.object o).compact = .ok r ∧ r.raw = o ∧
        r.toJson.compact = (Value.object o).compact ∧
        Record.parse k r.toJson.compact = .ok r ∧ Record.parse k r.toJson.pretty = .ok r) ∧
    ∀ (text : String) (r : Record k), Record.parse k text = .ok r → r.toJson.FloatsReadBack →
      ∀ layout : Layout, ∃ r' : Record k, Record.parse k (r.toJson.print layout) = .ok r' ∧
        r' = r ∧ r'.toJson.print layout = r.toJson.print layout := by
  constructor
  · -- An object that may be read: writing it is undone by reading it.
    intro o r hkeys hdepth hfloats hr
    have hprint := Record.parse_print hr hkeys hdepth hfloats
    have hraw : r.toJson = .object o := by rw [Record.toJson, Record.raw_of_ofMembers hr]
    rw [hraw]
    exact ⟨hprint .compact, Record.raw_of_ofMembers hr, rfl, hprint .compact, hprint .pretty⟩
  · -- Any text: what was read of it may be read again.
    intro text r hr hfloats layout
    obtain ⟨members, hparse, hmembers⟩ := Record.parse_eq_ok_iff.1 hr
    obtain ⟨hkeys, hdepth⟩ := Json.keysDistinct_and_depth_le_of_parse hparse
    have hraw : r.toJson = .object members := by
      rw [Record.toJson, Record.raw_of_ofMembers hmembers]
    rw [hraw] at hfloats ⊢
    exact ⟨r, Record.parse_print hmembers hkeys hdepth hfloats layout, rfl, by rw [hraw]⟩

/-- An object with an empty text, a field that no reader looks at, and a float. -/
def sampleTone : Members :=
  [("name", .string "Fr\n\x01iendly"), ("nameVi", .string ""),
    ("id", .number (.word (-7) (by decide))),
    ("examples", .array [.object [], .null, .number (.float Json.threeHalves)])]

/-- An object as it is kept of a text that repeats a key. -/
def settledTone : Members :=
  [("name", .string "a/b"), ("x", .array [.number (.float Json.threeHalves)])]

theorem floatsReadBack_sampleTone : (Value.object sampleTone).FloatsReadBack := by
  refine Json.floatsReadBack_of_threeHalves fun x hx => ?_
  simpa [sampleTone, Value.numbers, Json.numbersInMembers, Json.numbersInItems] using hx

theorem floatsReadBack_settledTone : (Value.object settledTone).FloatsReadBack := by
  refine Json.floatsReadBack_of_threeHalves fun x hx => ?_
  simpa [settledTone, Value.numbers, Json.numbersInMembers, Json.numbersInItems] using hx

/-- A text with blank space, an escape, a repeated key and a float in another spelling. -/
theorem parse_settledTone :
    Record.parse .tone " \x7b\"name\": null, \"x\":[ 15E-1 ],\"name\" :\"\\u0061\\/b\"\x7d\n" =
      .ok ⟨Kind.tone.fieldsOf settledTone, settledTone⟩ := by
  refine Record.parse_eq_ok_iff.2 ⟨settledTone, ?_, rfl⟩
  simp only [Json.parse, String.reduceToList]
  rfl

/-- Both halves of the round trip, at an object and at a text that is written in
    another way. -/
theorem record_written_reads_back_sample :
    (Record.parse .tone (Value.object sampleTone).compact =
        .ok ⟨Kind.tone.fieldsOf sampleTone, sampleTone⟩ ∧
      Record.parse .tone (Value.object sampleTone).pretty =
        .ok ⟨Kind.tone.fieldsOf sampleTone, sampleTone⟩) ∧
    ∃ r' : Record .tone,
      Record.parse .tone ((Value.object settledTone).print .pretty) = .ok r' ∧
        r' = ⟨Kind.tone.fieldsOf settledTone, settledTone⟩ ∧
        r'.toJson.print .pretty = (Value.object settledTone).print .pretty := by
  obtain ⟨hread, -, -, -, hpretty⟩ :=
    (record_written_reads_back .tone).1 sampleTone ⟨Kind.tone.fieldsOf sampleTone, sampleTone⟩
      (by simp [sampleTone, Value.KeysDistinct, Json.MembersDistinct, Json.ItemsDistinct])
      (by decide) floatsReadBack_sampleTone rfl
  exact ⟨⟨hread, hpretty⟩,
    (record_written_reads_back .tone).2 _ _ parse_settledTone floatsReadBack_settledTone .pretty⟩

end Stylebook
