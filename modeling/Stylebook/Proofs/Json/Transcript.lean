/-
  Stylebook.Proofs.Json.Transcript

  Texts for documents that were read. Writing spells a float with its shortest digits, and they
  need not be read as that float again. The digits that it was read from are, wherever they
  stand, so a number that was read has a text of its own (`exists_transcript_number`), and with
  texts for its numbers a document has one (`exists_transcript`). In particular there is one
  for every document that was read, with its repeated keys settled
  (`exists_text_of_document`).
-/

import Mathlib.Tactic.Choose
import Stylebook.Proofs.Json.RoundTrip

namespace Stylebook.Json

/-- A text that a value is read from, whatever follows it and does not go on with a number. -/
structure Transcript (v : Value) (text : List Char) : Prop where
  head : ∃ c t, text = c :: t ∧ isGap c = false ∧ c ≠ ']'
  read : ∀ (depth : Nat) (rest : List Char), v.depth ≤ depth → Stops rest →
    value depth (text ++ rest) = .ok (v, rest)

/-! ## Numbers -/

/-- A numeral that was read, spelled out. -/
theorem exists_spelling {negative : Bool} {n : Numeral} {s rest : List Char}
    (h : numeral negative s = .ok (n, rest)) :
    ∃ text, ∀ rest', Stops rest' → numeral negative (text ++ rest') = .ok (n, rest') := by
  obtain ⟨whole, s₁, fraction, s₂, exponent, hw, hf, he, rfl⟩ := numeral_eq_ok_iff.1 h
  obtain ⟨hwhole, -, -⟩ := wholePart_eq_ok_iff.1 hw
  have hfraction : ∀ c ∈ fraction, c.isDigit = true := by
    rcases fractionPart_eq_ok_iff.1 hf with ⟨rfl, -, -⟩ | ⟨s', -, hrow⟩
    · nofun
    · exact (digitRow_eq_ok_iff.1 hrow).2.1
  rcases exponentPart_eq_ok_iff.1 he with ⟨rfl, -, -⟩ | ⟨c, s', digits, -, -, rfl, hrow⟩
  · by_cases hnil : fraction = []
    · rw [hnil]
      exact ⟨whole, fun rest' hstop => numeral_whole negative hwhole hstop⟩
    · refine ⟨whole ++ '.' :: fraction, fun rest' hstop => ?_⟩
      rw [List.append_assoc, List.cons_append]
      exact numeral_fraction negative hwhole hnil hfraction hstop
  · obtain ⟨hne, hdigits, -, -⟩ := digitRow_eq_ok_iff.1 hrow
    refine ⟨whole ++ ((if fraction = [] then [] else '.' :: fraction)
      ++ 'e' :: (if (exponentSign s').1 then '-' else '+') :: digits), fun rest' hstop => ?_⟩
    have hread := numeral_exponent negative (exponentSign s').1 hwhole hfraction hne hdigits hstop
    simpa using hread

/-- A number that was read has a text. -/
theorem exists_transcript_number {negative : Bool} {x : Number} {s rest : List Char}
    (h : number negative s = .ok (.number x, rest)) : ∃ text, Transcript (.number x) text := by
  obtain ⟨n, y, hn, hy, hx⟩ := number_eq_ok_iff.1 h
  cases hx
  obtain ⟨text, hread⟩ := exists_spelling hn
  obtain ⟨c, t, htext, hc⟩ := exists_digit_of_numeral (hread [] (headNot_nil isNumeric))
  rw [List.append_nil] at htext
  have hnumeric := isNumeric_of_isDigit c hc
  cases negative with
  | false =>
    refine ⟨text, ⟨c, t, htext, isGap_of_isNumeric hnumeric, ?_⟩, fun depth rest _ hstop => ?_⟩
    · rintro rfl
      cases hnumeric
    · exact value_of_signedNumeral depth (signedNumeral_of_numeral (hread rest hstop)) hy
  | true =>
    refine ⟨'-' :: text, ⟨'-', text, rfl, rfl, by decide⟩, fun depth rest _ hstop => ?_⟩
    exact value_of_signedNumeral depth (hread rest hstop) hy

/-- All numbers of a value have texts. -/
def Value.NumbersTranscribed (v : Value) : Prop :=
  ∀ x ∈ v.numbers, ∃ text, Transcript (.number x) text

theorem numbersTranscribed_of_numbers {v : Value} (h : v.numbers = []) :
    v.NumbersTranscribed := by
  intro x hx
  rw [h] at hx
  cases hx

theorem numbersTranscribed_array_iff {items : List Value} :
    (Value.array items).NumbersTranscribed ↔ ∀ v ∈ items, v.NumbersTranscribed := by
  constructor
  · exact fun h v hv x hx => h x (mem_numbers_array_iff.2 ⟨v, hv, hx⟩)
  · intro h x hx
    obtain ⟨v, hv, hx⟩ := mem_numbers_array_iff.1 hx
    exact h v hv x hx

theorem numbersTranscribed_object_iff {members : Members} :
    (Value.object members).NumbersTranscribed ↔ ∀ m ∈ members, m.2.NumbersTranscribed := by
  constructor
  · exact fun h m hm x hx => h x (mem_numbers_object_iff.2 ⟨m, hm, hx⟩)
  · intro h x hx
    obtain ⟨m, hm, hx⟩ := mem_numbers_object_iff.1 hx
    exact h m hm x hx

theorem numbersTranscribed_of_number {negative : Bool} {v : Value} {s rest : List Char}
    (h : number negative s = .ok (v, rest)) : v.NumbersTranscribed := by
  obtain ⟨n, x, -, -, rfl⟩ := number_eq_ok_iff.1 h
  intro y hy
  rw [List.mem_singleton.1 hy]
  exact exists_transcript_number h

/-- The numbers of a value that was read have texts. -/
theorem numbersTranscribed_of_value (depth : Nat) {s rest : List Char} {v : Value}
    (h : value depth s = .ok (v, rest)) : v.NumbersTranscribed := by
  induction depth generalizing s rest v with
  | zero =>
    have hstart := valueWith_eq_ok_iff.1 h
    generalize skipGap s = u at hstart
    cases hstart with
    | array h => exact absurd h failAt_ne_ok
    | object h => exact absurd h failAt_ne_ok
    | negative h => exact numbersTranscribed_of_number h
    | number _ h => exact numbersTranscribed_of_number h
    | _ => exact numbersTranscribed_of_numbers rfl
  | succ depth ih =>
    have hstart := valueWith_eq_ok_iff.1 h
    generalize skipGap s = u at hstart
    cases hstart with
    | array h =>
      obtain ⟨items, rfl, hrow⟩ := arrayRest_eq_ok_iff.1 h
      exact numbersTranscribed_array_iff.2 (row_forall (value_takesFront depth) ih hrow)
    | object h =>
      obtain ⟨members, rfl, hrow⟩ := objectRest_eq_ok_iff.1 h
      refine numbersTranscribed_object_iff.2
        (row_forall (member_takesFront (value_takesFront depth)) (fun hm => ?_) hrow)
      obtain ⟨s', mid, t, -, -, -, hv⟩ := member_eq_ok_iff.1 hm
      exact ih hv
    | negative h => exact numbersTranscribed_of_number h
    | number _ h => exact numbersTranscribed_of_number h
    | _ => exact numbersTranscribed_of_numbers rfl

/-! ## Values -/

/-- What is written of a value without numbers is a text of it. -/
theorem transcript_of_numbers {v : Value} (h : v.numbers = []) :
    Transcript v (v.write .compact 0) := by
  refine ⟨write_eq_cons .compact 0 v, fun depth rest hdepth hstop => ?_⟩
  obtain ⟨w, hw, hreturn⟩ := exists_value_write .compact v 0 depth hdepth hstop
  obtain rfl := hreturn.eq_of_floats (floatsReadBack_of_numbers h)
  exact hw

section Parts

variable {text : Value → List Char}

/-- An array is told item by item. -/
theorem exists_transcript_array {items : List Value} (h : ∀ v ∈ items, Transcript v (text v)) :
    ∃ t, Transcript (.array items) t := by
  cases items with
  | nil => exact ⟨_, transcript_of_numbers rfl⟩
  | cons v items =>
    refine ⟨'[' :: (text v ++ rowEnd .array text [] [] items []), ⟨_, _, rfl, rfl, by decide⟩,
      fun depth rest hdepth _ => ?_⟩
    cases depth with
    | zero => exact absurd hdepth (Nat.not_succ_le_zero _)
    | succ depth =>
      have hgap : ∀ c ∈ ([] : List Char), isGap c = true := nofun
      have hdeep := depth_array_le_iff.1 hdepth
      have hitems : ∀ w ∈ v :: items, ReadsRelated .array (value depth) text Eq w :=
        fun w hw => ⟨(h w hw).head,
          fun rest hstop => ⟨w, (h w hw).read depth rest (hdeep w hw) hstop, rfl⟩⟩
      obtain ⟨items', hrow, heq⟩ := exists_row_written hgap hgap ⟨rfl, rfl⟩
        (value_takesFront depth) hitems rest
      rw [List.forall₂_eq_eq_eq] at heq
      rw [← heq] at hrow
      refine valueWith_eq_ok_iff.2 (.array (arrayRest_eq_ok_iff.2 ⟨_, rfl, ?_⟩))
      simpa [rowEnd] using hrow

/-- A member is told as its key, a colon and its value. -/
def tellMember (text : Value → List Char) (m : String × Value) : List Char :=
  writeString m.1 ++ ':' :: text m.2

theorem member_tellMember {depth : Nat} {m : String × Value} {rest : List Char}
    (h : value depth (text m.2 ++ rest) = .ok (m.2, rest)) :
    member (value depth) (tellMember text m ++ rest) = .ok (m, rest) := by
  have htext : tellMember text m ++ rest
      = '"' :: (m.1.toList.flatMap escapeChar ++ '"' :: ':' :: (text m.2 ++ rest)) := by
    simp [tellMember, writeString]
  exact member_eq_ok_iff.2 ⟨_, _, _, htext, quoted_written m.1 _, skipGap_cons rfl, h⟩

/-- An object is told member by member. -/
theorem exists_transcript_object {members : Members}
    (h : ∀ m ∈ members, Transcript m.2 (text m.2)) : ∃ t, Transcript (.object members) t := by
  cases members with
  | nil => exact ⟨_, transcript_of_numbers rfl⟩
  | cons m members =>
    refine ⟨'\x7b' :: (tellMember text m ++ rowEnd .object (tellMember text) [] [] members []),
      ⟨_, _, rfl, rfl, by decide⟩, fun depth rest hdepth _ => ?_⟩
    cases depth with
    | zero => exact absurd hdepth (Nat.not_succ_le_zero _)
    | succ depth =>
      have hgap : ∀ c ∈ ([] : List Char), isGap c = true := nofun
      have hdeep := depth_object_le_iff.1 hdepth
      have hmembers : ∀ m' ∈ m :: members,
          ReadsRelated .object (member (value depth)) (tellMember text) Eq m' :=
        fun m' hm => ⟨⟨'"', _, rfl, rfl, by decide⟩, fun rest hstop =>
          ⟨m', member_tellMember ((h m' hm).read depth rest (hdeep m' hm) hstop), rfl⟩⟩
      obtain ⟨members', hrow, heq⟩ := exists_row_written hgap hgap ⟨rfl, rfl⟩
        (member_takesFront (value_takesFront depth)) hmembers rest
      rw [List.forall₂_eq_eq_eq] at heq
      rw [← heq] at hrow
      refine valueWith_eq_ok_iff.2 (.object (objectRest_eq_ok_iff.2 ⟨_, rfl, ?_⟩))
      simpa [rowEnd] using hrow

end Parts

/-- With texts for its numbers, a value has a text. -/
theorem exists_transcript {v : Value} (h : v.NumbersTranscribed) : ∃ t, Transcript v t := by
  induction v with
  | number x => exact h x (List.mem_singleton.2 rfl)
  | array items ih =>
    have hnumbers := numbersTranscribed_array_iff.1 h
    choose! text htext using fun v hv => ih v hv (hnumbers v hv)
    exact exists_transcript_array htext
  | object members ih =>
    have hnumbers := numbersTranscribed_object_iff.1 h
    have hvalues : ∀ v ∈ members.map Prod.snd, ∃ t, Transcript v t := by
      intro v hv
      obtain ⟨m, hm, rfl⟩ := List.mem_map.1 hv
      exact ih m hm (hnumbers m hm)
    choose! text htext using hvalues
    exact exists_transcript_object fun m hm => htext m.2 (List.mem_map_of_mem hm)
  | _ => exact ⟨_, transcript_of_numbers rfl⟩

/-! ## Documents -/

/-- For every document that was read there is a text that is read as it, with its repeated keys
    settled. -/
theorem exists_text_of_document {s : List Char} {w : Value} (h : document s = .ok w) :
    ∃ text : String, document text.toList = .ok w.settle := by
  obtain ⟨rest, hvalue, -⟩ := document_eq_ok_iff.1 h
  have hnumbers : w.settle.NumbersTranscribed := fun x hx =>
    numbersTranscribed_of_value depthLimit hvalue x (mem_numbers_of_mem_settle hx)
  obtain ⟨t, ht⟩ := exists_transcript hnumbers
  have hdepth := Nat.le_trans (depth_settle_le w) (value_depth_le depthLimit hvalue)
  have hread := ht.read depthLimit [] hdepth (headNot_nil isNumeric)
  rw [List.append_nil] at hread
  refine ⟨String.ofList t, document_eq_ok_iff.2 ⟨[], ?_, rfl⟩⟩
  rw [String.toList_ofList]
  exact hread

end Stylebook.Json
