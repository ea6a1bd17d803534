/-
  Stylebook.Proofs.Json.Phrase

  The texts of the format by its grammar alone (`Phrase`): numerals, strings with their
  escapes, arrays and objects, and blank space where it may stand. The grammar asks neither
  whether a number is in range nor whether the halves of a character pair up, and it says how
  many levels of nesting a text has.

  On such a text a reader comes to one result, whatever follows it (`Comes`): it reads the
  text, up to blank space at the end, or it refuses it. Here that is shown for numbers and for
  strings, from what their readers accept.
-/

import Stylebook.Proofs.Json.Spelling

namespace Stylebook.Json

/-! ## Grammar -/

/-- A text of blank space. -/
def Gap (s : List Char) : Prop := ∀ c ∈ s, isGap c = true

/-- A fraction with its point, if there is one. -/
def IsFraction (s : List Char) : Prop :=
  s = [] ∨ ∃ ds, s = '.' :: ds ∧ ds ≠ [] ∧ ∀ d ∈ ds, d.isDigit = true

/-- An exponent with its letter, and perhaps a sign, if there is one. -/
def IsExponent (s : List Char) : Prop :=
  s = [] ∨ ∃ c sign ds, s = c :: (sign ++ ds) ∧ isExponentLetter c = true ∧
    (sign = [] ∨ sign = ['+'] ∨ sign = ['-']) ∧ ds ≠ [] ∧ ∀ d ∈ ds, d.isDigit = true

/-- A number without a sign. -/
inductive Unsigned : List Char → Prop where
  | mk {whole fraction exponent : List Char} : IsWhole whole → IsFraction fraction →
      IsExponent exponent → Unsigned (whole ++ (fraction ++ exponent))

/-- The letters of the escapes that stand for one character each. -/
def escapeLetters : List Char := ['"', '\\', '/', 'b', 'f', 'n', 'r', 't']

/-- What stands between the quotes of a string. -/
inductive Quotation : List Char → Prop where
  | nil : Quotation []
  | plain {c : Char} {s : List Char} : c ≠ '"' → c ≠ '\\' → 0x20 ≤ c.toNat → Quotation s →
      Quotation (c :: s)
  | letter {c : Char} {s : List Char} : c ∈ escapeLetters → Quotation s →
      Quotation ('\\' :: c :: s)
  | code {a b c d : Char} {n : Nat} {s : List Char} : hexValue? a b c d = some n →
      Quotation s → Quotation ('\\' :: 'u' :: a :: b :: c :: d :: s)

/-- The items of a row with commas between them, and the bracket behind them. -/
def rowText (close : Closing) (item : List Char) (items : List (List Char)) : List Char :=
  item ++ (items.flatMap (',' :: ·) ++ [close.bracket])

/-- A member of an object: its key between quotes, the colon and its value, with blank space
    before the key and before the colon. -/
def textOfMember (before key between value : List Char) : List Char :=
  before ++ '"' :: (key ++ '"' :: (between ++ ':' :: value))

/-- The parts of a member. -/
structure MemberText where
  before : List Char
  key : List Char
  between : List Char
  value : List Char
  gap_before : Gap before
  quotation_key : Quotation key
  gap_between : Gap between

/-- The text of a member. -/
def MemberText.text (m : MemberText) : List Char :=
  textOfMember m.before m.key m.between m.value

/-- The text of a value of at most so many levels of nesting, with blank space around it. -/
inductive Phrase : Nat → List Char → Prop where
  | null {n : Nat} : Phrase n ['n', 'u', 'l', 'l']
  | yes {n : Nat} : Phrase n ['t', 'r', 'u', 'e']
  | no {n : Nat} : Phrase n ['f', 'a', 'l', 's', 'e']
  | number {n : Nat} {s : List Char} : Unsigned s → Phrase n s
  | negative {n : Nat} {s : List Char} : Unsigned s → Phrase n ('-' :: s)
  | string {n : Nat} {s : List Char} : Quotation s → Phrase n ('"' :: (s ++ ['"']))
  | emptyArray {n : Nat} {gap : List Char} : Gap gap → Phrase (n + 1) ('[' :: (gap ++ [']']))
  | array {n : Nat} {item : List Char} {items : List (List Char)} :
      (∀ t ∈ item :: items, Phrase n t) → Phrase (n + 1) ('[' :: rowText .array item items)
  | emptyObject {n : Nat} {gap : List Char} : Gap gap →
      Phrase (n + 1) ('\x7b' :: (gap ++ ['\x7d']))
  | object {n : Nat} {m : MemberText} {ms : List MemberText} :
      (∀ m' ∈ m :: ms, Phrase n m'.value) →
      Phrase (n + 1) ('\x7b' :: rowText .object m.text (ms.map MemberText.text))
  | blank {n : Nat} {before after s : List Char} : Gap before → Gap after → Phrase n s →
      Phrase n (before ++ (s ++ after))

/-! ## One result, whatever follows -/

/-- A reader comes to a result on a text, whatever follows it: it reads the text, up to blank
    space at the end, or it never does. -/
def Comes {α : Type} (r : Reader α) (t : List Char) (o : Option α) : Prop :=
  ∃ gap, Gap gap ∧ ∀ rest, Stops rest → ∀ a rest',
    r (t ++ rest) = .ok (a, rest') ↔ o = some a ∧ rest' = gap ++ rest

section Gap

theorem gap_nil : Gap [] := nofun

theorem isNumeric_of_isGap {c : Char} (h : isGap c = true) : isNumeric c = false := by
  cases hc : isNumeric c with
  | false => rfl
  | true =>
    rw [isGap_of_isNumeric hc] at h
    cases h

/-- Blank space stops a number, as what stands behind it does. -/
theorem Gap.stops {gap rest : List Char} (hgap : Gap gap) (h : Stops rest) :
    Stops (gap ++ rest) := by
  cases gap with
  | nil => exact h
  | cons c gap => exact headNot_cons.2 (isNumeric_of_isGap (hgap c List.mem_cons_self))

theorem Gap.skipGap_append {gap s : List Char} {c : Char} (hgap : Gap gap)
    (hc : isGap c = false) : skipGap (gap ++ c :: s) = c :: s := by
  rw [Json.skipGap_append hgap, skipGap_cons hc]

end Gap

section Comes

variable {α β : Type} {r : Reader α} {t : List Char} {o : Option α}

/-- What a reader comes to is read of the text alone, up to blank space. -/
theorem Comes.read_iff (h : Comes r t o) {a : α} :
    o = some a ↔ ∃ rest, r t = .ok (a, rest) ∧ skipGap rest = [] := by
  obtain ⟨gap, hgap, hread⟩ := h
  have hread' := hread [] (headNot_nil isNumeric) a
  rw [List.append_nil, List.append_nil] at hread'
  constructor
  · intro ho
    exact ⟨gap, (hread' gap).2 ⟨ho, rfl⟩, skipGap_eq_nil_iff.2 hgap⟩
  · rintro ⟨rest, ha, -⟩
    exact ((hread' rest).1 ha).1

/-- A reader that hands on what another one reads comes to what that one comes to. -/
theorem Comes.map {r' : Reader β} {t' : List Char} (f : α → β) (h : Comes r t o)
    (hread : ∀ s b rest, r' (t' ++ s) = .ok (b, rest) ↔
      ∃ a, b = f a ∧ r (t ++ s) = .ok (a, rest)) : Comes r' t' (o.map f) := by
  obtain ⟨gap, hgap, hcomes⟩ := h
  refine ⟨gap, hgap, fun rest hstop b rest' => ?_⟩
  rw [hread, Option.map_eq_some_iff]
  constructor
  · rintro ⟨a, rfl, ha⟩
    obtain ⟨ho, hrest⟩ := (hcomes rest hstop a rest').1 ha
    exact ⟨⟨a, ho, rfl⟩, hrest⟩
  · rintro ⟨⟨a, ho, rfl⟩, hrest⟩
    exact ⟨a, rfl, (hcomes rest hstop a rest').2 ⟨ho, hrest⟩⟩

theorem Comes.congr {r' : Reader α} {t' : List Char} (h : Comes r t o)
    (hread : ∀ s x, r' (t' ++ s) = .ok x ↔ r (t ++ s) = .ok x) : Comes r' t' o := by
  obtain ⟨gap, hgap, hcomes⟩ := h
  exact ⟨gap, hgap, fun rest hstop a rest' => (hread _ _).trans (hcomes rest hstop a rest')⟩

theorem comes_none (h : ∀ s x, r (t ++ s) ≠ .ok x) : Comes r t none := by
  refine ⟨[], gap_nil, fun rest _ a rest' => ⟨fun hread => absurd hread (h _ _), ?_⟩⟩
  rintro ⟨⟨⟩, -⟩

theorem comes_some {a : α} (h : ∀ s, Stops s → r (t ++ s) = .ok (a, s)) :
    Comes r t (some a) := by
  refine ⟨[], gap_nil, fun rest hstop b rest' => ?_⟩
  rw [h rest hstop, Except.ok.injEq, Prod.mk.injEq, Option.some.injEq]
  exact and_congr_right fun _ => eq_comm

end Comes

/-! ## Numbers -/

section Numbers

variable {s rest : List Char}

theorem IsExponent.headNot {p : Char → Bool} (h : IsExponent s) (hstop : Stops rest)
    (hletter : ∀ c, isExponentLetter c = true → p c = false)
    (hp : ∀ c, p c = true → isNumeric c = true) : HeadNot p (s ++ rest) := by
  rcases h with rfl | ⟨c, sign, ds, rfl, hc, -⟩
  · exact hstop.of_imp hp
  · exact headNot_cons.2 (hletter c hc)

theorem forall_isExponentLetter {P : Char → Prop} (he : P 'e') (hE : P 'E') (c : Char)
    (hc : isExponentLetter c = true) : P c := by
  rw [isExponentLetter, Bool.or_eq_true, beq_iff_eq, beq_iff_eq] at hc
  rcases hc with rfl | rfl
  · exact he
  · exact hE

theorem exists_fractionPart_eq (h : IsFraction s) :
    ∃ ds, ∀ rest, HeadNot Char.isDigit rest → HeadNot (· == '.') rest →
      fractionPart (s ++ rest) = .ok (ds, rest) := by
  rcases h with rfl | ⟨ds, rfl, hne, hds⟩
  · exact ⟨[], fun rest _ hpoint => fractionPart_eq_ok_iff.2 (.inl ⟨rfl, rfl, hpoint⟩)⟩
  · refine ⟨ds, fun rest hdigit _ => fractionPart_eq_ok_iff.2 (.inr ⟨ds ++ rest, rfl, ?_⟩)⟩
    exact digitRow_eq_ok_iff.2 ⟨hne, hds, rfl, hdigit⟩

/-- The sign of an exponent is taken off in front of its digits. -/
theorem exists_exponentSign_eq {sign ds : List Char}
    (hsign : sign = [] ∨ sign = ['+'] ∨ sign = ['-']) (hne : ds ≠ [])
    (hds : ∀ d ∈ ds, d.isDigit = true) :
    ∃ below, ∀ rest, exponentSign (sign ++ ds ++ rest) = (below, ds ++ rest) := by
  rcases hsign with rfl | rfl | rfl
  · obtain ⟨d, ds, rfl⟩ := List.exists_cons_of_ne_nil hne
    have hd := hds d List.mem_cons_self
    have hplus : d ≠ '+' := fun h => by
      rw [h] at hd
      cases hd
    have hminus : d ≠ '-' := fun h => by
      rw [h] at hd
      cases hd
    exact ⟨false, fun rest => by simp [exponentSign, hplus, hminus]⟩
  · exact ⟨false, fun rest => rfl⟩
  · exact ⟨true, fun rest => rfl⟩

theorem exists_exponentPart_eq (h : IsExponent s) :
    ∃ x, ∀ rest, Stops rest → exponentPart (s ++ rest) = .ok (x, rest) := by
  rcases h with rfl | ⟨c, sign, ds, rfl, hc, hsign, hne, hds⟩
  · refine ⟨none, fun rest hstop => exponentPart_eq_ok_iff.2 (.inl ⟨rfl, rfl, ?_⟩)⟩
    exact hstop.of_imp isNumeric_of_isExponentLetter
  · obtain ⟨below, hbelow⟩ := exists_exponentSign_eq hsign hne hds
    refine ⟨some (below, ds), fun rest hstop => exponentPart_eq_ok_iff.2 (.inr ?_)⟩
    refine ⟨c, sign ++ ds ++ rest, ds, rfl, hc, ?_, ?_⟩
    · rw [hbelow]
    · rw [hbelow]
      exact digitRow_eq_ok_iff.2 ⟨hne, hds, rfl, hstop.of_imp isNumeric_of_isDigit⟩

/-- A number is read as one numeral. -/
theorem Unsigned.exists_numeral_eq (h : Unsigned s) (negative : Bool) :
    ∃ n, ∀ rest, Stops rest → numeral negative (s ++ rest) = .ok (n, rest) := by
  obtain ⟨hwhole, hfraction, hexponent⟩ := h
  rename_i whole fraction exponent
  obtain ⟨ds, hds⟩ := exists_fractionPart_eq hfraction
  obtain ⟨x, hx⟩ := exists_exponentPart_eq hexponent
  refine ⟨⟨negative, whole, ds, x⟩, fun rest hstop => ?_⟩
  have hdigit : HeadNot Char.isDigit (exponent ++ rest) :=
    hexponent.headNot hstop (forall_isExponentLetter rfl rfl) isNumeric_of_isDigit
  have hpoint : HeadNot (· == '.') (exponent ++ rest) :=
    hexponent.headNot hstop (forall_isExponentLetter rfl rfl) isNumeric_of_isPoint
  -- Behind the digits before the point stands the point, the letter or the end.
  have hfirst : HeadNot Char.isDigit (fraction ++ (exponent ++ rest)) := by
    rcases hfraction with rfl | ⟨ds', rfl, -⟩
    · exact hdigit
    · exact headNot_cons.2 rfl
  rw [List.append_assoc, List.append_assoc]
  exact numeral_eq_ok_iff.2 ⟨_, _, _, _, _, wholePart_eq_ok_iff.2 ⟨hwhole, rfl, hfirst⟩,
    hds _ hdigit hpoint, hx rest hstop, rfl⟩

theorem Unsigned.exists_comes (h : Unsigned s) (negative : Bool) :
    ∃ x : Option Number, Comes (number negative) s (x.map .number) := by
  obtain ⟨n, hn⟩ := h.exists_numeral_eq negative
  refine ⟨n.toNumber?, [], gap_nil, fun rest hstop v rest' => ?_⟩
  rw [number_eq_ok_iff, hn rest hstop, Option.map_eq_some_iff]
  constructor
  · rintro ⟨n', x, hn', hx, rfl⟩
    cases hn'
    exact ⟨⟨x, hx, rfl⟩, rfl⟩
  · rintro ⟨⟨x, hx, rfl⟩, rfl⟩
    exact ⟨n, x, rfl, hx, rfl⟩

/-- A number starts with a digit. -/
theorem Unsigned.exists_head (h : Unsigned s) : ∃ c t, s = c :: t ∧ c.isDigit = true := by
  obtain ⟨hwhole, -, -⟩ := h
  rcases hwhole with rfl | ⟨c, ds, rfl, -, hds⟩
  · exact ⟨'0', _, rfl, rfl⟩
  · exact ⟨c, _, rfl, hds c List.mem_cons_self⟩

end Numbers

/-! ## Strings -/

section Strings

variable {α : Type} {step : Reader (Option α)} {s mid rest : List Char} {as : List α}

theorem repeats_iff_of_step {a : α} (h : step s = .ok (some a, mid)) :
    Repeats step s as rest ↔ ∃ as', as = a :: as' ∧ Repeats step mid as' rest := by
  constructor
  · intro hrepeats
    cases hrepeats with
    | stop hs =>
      rw [h] at hs
      cases hs
    | next hs hrest =>
      rw [h] at hs
      cases hs
      exact ⟨_, rfl, hrest⟩
  · rintro ⟨as', rfl, hrest⟩
    exact .next h hrest

theorem not_repeats_of_step (h : ∀ x, step s ≠ .ok x) : ¬ Repeats step s as rest := by
  intro hrepeats
  cases hrepeats with
  | stop hs => exact h _ hs
  | next hs _ => exact h _ hs

/-- The characters that a string holds, if it is read, or that it is refused. -/
def ReadsQuotation (s : List Char) (o : Option (List Char)) : Prop :=
  ∀ rest cs rest', Repeats quotedStep (s ++ '"' :: rest) cs rest' ↔ o = some cs ∧ rest' = rest

theorem readsQuotation_nil : ReadsQuotation [] (some []) := by
  intro rest cs rest'
  have hstep : quotedStep ('"' :: rest) = .ok (none, rest) := rfl
  constructor
  · intro hrepeats
    cases hrepeats with
    | stop hs =>
      rw [List.nil_append, hstep] at hs
      cases hs
      exact ⟨rfl, rfl⟩
    | next hs _ =>
      rw [List.nil_append, hstep] at hs
      cases hs
  · rintro ⟨hcs, rfl⟩
    cases hcs
    exact .stop hstep

/-- A first character puts itself in front of the others. -/
theorem ReadsQuotation.cons {s' : List Char} {o : Option (List Char)} {c : Char}
    (h : ReadsQuotation s o)
    (hstep : ∀ rest, quotedStep (s' ++ rest) = .ok (some c, s ++ rest)) :
    ReadsQuotation s' (o.map (c :: ·)) := by
  intro rest cs rest'
  rw [repeats_iff_of_step (hstep _), Option.map_eq_some_iff]
  constructor
  · rintro ⟨cs', rfl, hrest⟩
    obtain ⟨ho, hrest'⟩ := (h rest cs' rest').1 hrest
    exact ⟨⟨cs', ho, rfl⟩, hrest'⟩
  · rintro ⟨⟨cs', ho, rfl⟩, hrest'⟩
    exact ⟨cs', rfl, (h rest cs' rest').2 ⟨ho, hrest'⟩⟩

theorem readsQuotation_none (h : ∀ rest x, quotedStep (s ++ '"' :: rest) ≠ .ok x) :
    ReadsQuotation s none := by
  intro rest cs rest'
  refine ⟨fun hrepeats => absurd hrepeats (not_repeats_of_step (h rest)), ?_⟩
  rintro ⟨⟨⟩, -⟩

theorem exists_escape_eq {c : Char} (hc : c ∈ escapeLetters) :
    ∃ e, ∀ s, escape (c :: s) = .ok (e, s) := by
  simp only [escapeLetters, List.mem_cons, List.not_mem_nil, or_false] at hc
  rcases hc with rfl | rfl | rfl | rfl | rfl | rfl | rfl | rfl
  all_goals exact ⟨_, fun _ => rfl⟩

theorem quotedStep_backslash_iff {x : Option Char} :
    quotedStep ('\\' :: s) = .ok (x, rest) ↔ ∃ e, x = some e ∧ escape s = .ok (e, rest) := by
  rw [quotedStep_eq_ok_iff]
  constructor
  · rintro (⟨-, ⟨⟩⟩ | ⟨e, s', rfl, hs, he⟩ | ⟨c, -, hc, -, hslash, -⟩)
    · cases hs
      exact ⟨e, rfl, he⟩
    · cases hc
      exact absurd rfl hslash
  · rintro ⟨e, rfl, he⟩
    exact .inr (.inl ⟨e, s, rfl, rfl, he⟩)

theorem isTrailing_of_isLeading {n : Nat} (h : isLeading n = true) : isTrailing n = false := by
  simp only [isLeading, Bool.and_eq_true, decide_eq_true_eq] at h
  simp only [isTrailing, Bool.and_eq_false_iff, decide_eq_false_iff_not]
  omega

/-- An escape by number, in front of a text: alone, or with the other half behind it. -/
theorem quotedStep_code_iff {a b c d : Char} {n : Nat} {x : Option Char}
    (hn : hexValue? a b c d = some n) :
    quotedStep ('\\' :: 'u' :: a :: b :: c :: d :: s) = .ok (x, rest) ↔
      ∃ e, x = some e ∧ isTrailing n = false ∧
        ((isLeading n = true ∧ secondHalf n s = .ok (e, rest)) ∨
          (isLeading n = false ∧ e = Char.ofNat n ∧ rest = s)) := by
  rw [quotedStep_backslash_iff]
  refine exists_congr fun e => and_congr_right fun _ => numberedEscape_eq_ok_iff.trans ?_
  have hcode : hexCode (a :: b :: c :: d :: s) = .ok (n, s) :=
    hexCode_eq_ok_iff.2 ⟨a, b, c, d, rfl, hn⟩
  constructor
  · rintro ⟨n', s', hn', hread⟩
    rw [hcode] at hn'
    cases hn'
    exact hread
  · intro hread
    exact ⟨n, s, hcode, hread⟩

/-- An escape for the first half of a character is refused in front of anything but one for the
    second half. -/
theorem readsQuotation_lone {a b c d : Char} {n : Nat} (hn : hexValue? a b c d = some n)
    (hlead : isLeading n = true) (h : ∀ rest x, secondHalf n (s ++ '"' :: rest) ≠ .ok x) :
    ReadsQuotation ('\\' :: 'u' :: a :: b :: c :: d :: s) none := by
  apply readsQuotation_none
  rintro rest ⟨x, rest'⟩ hstep
  obtain ⟨e, -, -, ⟨-, hsecond⟩ | ⟨hlead', -⟩⟩ := (quotedStep_code_iff hn).1 hstep
  · exact h rest _ hsecond
  · rw [hlead] at hlead'
    cases hlead'

/-- Two escapes for the halves of a character stand for that character. -/
theorem exists_readsQuotation_pair {a b c d a' b' c' d' : Char} {n n' : Nat}
    {o : Option (List Char)} (hn : hexValue? a b c d = some n) (hlead : isLeading n = true)
    (hn' : hexValue? a' b' c' d' = some n') (h : ReadsQuotation s o) :
    ∃ o', ReadsQuotation
      ('\\' :: 'u' :: a :: b :: c :: d :: '\\' :: 'u' :: a' :: b' :: c' :: d' :: s) o' := by
  have hcode (rest : List Char) : hexCode (a' :: b' :: c' :: d' :: (s ++ rest))
      = .ok (n', s ++ rest) := hexCode_eq_ok_iff.2 ⟨a', b', c', d', rfl, hn'⟩
  have htrail : isTrailing n = false := isTrailing_of_isLeading hlead
  cases hsecond : isTrailing n' with
  | true =>
    obtain ⟨e, he⟩ : ∃ e, ∀ rest, secondHalf n
        ('\\' :: 'u' :: a' :: b' :: c' :: d' :: (s ++ rest)) = .ok (e, s ++ rest) :=
      ⟨_, fun rest => secondHalf_eq_ok_iff.2 ⟨_, n', rfl, hcode rest, hsecond, rfl⟩⟩
    exact ⟨o.map (e :: ·), h.cons fun rest =>
      (quotedStep_code_iff hn).2 ⟨e, rfl, htrail, .inl ⟨hlead, he rest⟩⟩⟩
  | false =>
    refine ⟨none, readsQuotation_lone hn hlead fun rest x hread => ?_⟩
    obtain ⟨s', m, hs', hm, hm', -⟩ := secondHalf_eq_ok_iff.1 hread
    cases hs'
    obtain ⟨rfl, -⟩ := Prod.mk.inj (Except.ok.inj ((hcode _).symm.trans hm))
    rw [hsecond] at hm'
    cases hm'

/-- A quotation is read as one row of characters, or refused, also when the first half of a
    character stands before it. -/
theorem Quotation.exists_reads (h : Quotation s) :
    (∃ o, ReadsQuotation s o) ∧
      ∀ a b c d n, hexValue? a b c d = some n → isLeading n = true →
        ∃ o, ReadsQuotation ('\\' :: 'u' :: a :: b :: c :: d :: s) o := by
  induction h with
  | nil =>
    refine ⟨⟨some [], readsQuotation_nil⟩, fun a b c d n hn hlead => ⟨none, ?_⟩⟩
    · apply readsQuotation_lone hn hlead
      intro rest x hread
      obtain ⟨s', m, ⟨⟩, -⟩ := secondHalf_eq_ok_iff.1 hread
  | @plain c s hquote hslash hlow _ ih =>
    obtain ⟨⟨o, ho⟩, -⟩ := ih
    refine ⟨⟨o.map (c :: ·), ho.cons fun rest => ?_⟩, fun a b c d n hn hlead => ⟨none, ?_⟩⟩
    · exact quotedStep_eq_ok_iff.2 (.inr (.inr ⟨c, rfl, rfl, hquote, hslash, hlow⟩))
    · apply readsQuotation_lone hn hlead
      intro rest x hread
      obtain ⟨s', m, hs', -⟩ := secondHalf_eq_ok_iff.1 hread
      rw [List.cons_append, List.cons.injEq] at hs'
      exact hslash hs'.1
  | @letter c s hc _ ih =>
    obtain ⟨⟨o, ho⟩, -⟩ := ih
    obtain ⟨e, he⟩ := exists_escape_eq hc
    refine ⟨⟨o.map (e :: ·), ho.cons fun rest => ?_⟩, fun a b c d n hn hlead => ⟨none, ?_⟩⟩
    · exact quotedStep_backslash_iff.2 ⟨e, rfl, he _⟩
    · apply readsQuotation_lone hn hlead
      intro rest x hread
      obtain ⟨s', m, hs', -⟩ := secondHalf_eq_ok_iff.1 hread
      rw [List.cons_append, List.cons_append, List.cons.injEq, List.cons.injEq] at hs'
      rw [hs'.2.1] at hc
      exact absurd hc (by decide)
  | @code a b c d n s hn _ ih =>
    obtain ⟨⟨o, ho⟩, hlone⟩ := ih
    refine ⟨?_, fun a' b' c' d' n' hn' hlead' =>
      exists_readsQuotation_pair hn' hlead' hn ho⟩
    cases hlead : isLeading n with
    | true => exact hlone a b c d n hn hlead
    | false =>
      cases htrail : isTrailing n with
      | true =>
        refine ⟨none, readsQuotation_none fun rest x hread => ?_⟩
        obtain ⟨e, -, htrail', -⟩ := (quotedStep_code_iff hn).1 hread
        rw [htrail] at htrail'
        cases htrail'
      | false =>
        exact ⟨_, ho.cons fun rest =>
          (quotedStep_code_iff hn).2 ⟨_, rfl, htrail, .inr ⟨hlead, rfl, rfl⟩⟩⟩

theorem Quotation.exists_comes (h : Quotation s) : ∃ o, Comes quoted (s ++ ['"']) o := by
  obtain ⟨⟨o, ho⟩, -⟩ := h.exists_reads
  refine ⟨o.map String.ofList, [], gap_nil, fun rest _ text rest' => ?_⟩
  rw [quoted_eq_ok_iff, List.append_assoc]
  refine (ho rest text.toList rest').trans (and_congr_left fun _ => ?_)
  rw [Option.map_eq_some_iff]
  constructor
  · intro hcs
    exact ⟨text.toList, hcs, String.ofList_toList⟩
  · rintro ⟨cs, hcs, rfl⟩
    rw [hcs, String.toList_ofList]

end Strings

end Stylebook.Json
