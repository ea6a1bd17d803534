/-
  Stylebook.Proofs.CommandLine.Spelling

  The ways to write a command line, and that they all mean the same. A line is written in
  pieces (`Piece`): a word, a flag under its long name, flags in one cluster of letters, or an
  option with its value, which has five forms (`Form`). Behind a double hyphen only words
  follow, as they stand (`Line`).

  A piece says one item after another (`Piece.items`): a word, a flag, a value for an option.
  Reading is followed in two layers:

    * one step of the layer of items records one item (`Options.record`), and recording them
      all gives the options that they add up to (`Adds.foldlM_record`);
    * reading the arguments of a piece does what recording its items does
      (`Piece.foldlM_step`). A value that is read and not yet settled is no exception, since
      states are compared by the options they stand for (`State.StandsFor`).

  `spelled_line_parses` joins them: whatever options are chosen, they can be written, and in
  whatever way they are written, they are read.
-/

import Stylebook.CommandLine

namespace Stylebook

namespace CommandLine

/-! ## Names -/

/-- The long name of a flag. -/
def Flag.longName : Flag → String
  | .json => "json"
  | .list => "list"

/-- The letter of a flag. -/
def Flag.letter : Flag → Char
  | .json => 'j'
  | .list => 'l'

/-- The long name of an option with a value. -/
def Slot.longName : Slot → String
  | .kind => "type"
  | .directory => "data-dir"

/-- The letter of an option with a value. -/
def Slot.letter : Slot → Char
  | .kind => 't'
  | .directory => 'd'

@[simp] theorem shortSwitch?_flag (f : Flag) : shortSwitch? f.letter = some (.flag f) := by
  cases f <;> rfl

@[simp] theorem shortSwitch?_slot (slot : Slot) :
    shortSwitch? slot.letter = some (.slot slot) := by
  cases slot <;> rfl

/-! ## Pieces -/

/-- The first character of a text. -/
def StartsWith (text : String) (c : Char) : Prop := text.toList.head? = some c

/-- How an option is written with its value. In the short forms flags may stand before the
    letter of the option, in the same argument. -/
inductive Form where
  /-- The long name, and the value in the next argument. -/
  | long
  /-- The long name, an equals sign and the value. -/
  | longEquals
  /-- The letter, and the value in the next argument. -/
  | short (flags : List Flag)
  /-- The letter, and the value right behind it. -/
  | shortAttached (flags : List Flag)
  /-- The letter, an equals sign and the value. -/
  | shortEquals (flags : List Flag)
deriving DecidableEq, Repr

/-- A piece of a line before the double hyphen. -/
inductive Piece where
  | word (w : String)
  | flag (f : Flag)
  | cluster (first : Flag) (others : List Flag)
  | value (slot : Slot) (form : Form) (text : String)
deriving DecidableEq, Repr

/-- What a piece says: a word, a flag, or a value for an option. -/
inductive Item where
  | word (w : String)
  | flag (f : Flag)
  | value (slot : Slot) (text : String)
deriving DecidableEq, Repr

/-- The letters of flags. -/
def letters (flags : List Flag) : String := String.ofList (flags.map Flag.letter)

/-- The letter of an option as a text. -/
def Slot.short (slot : Slot) : String := String.ofList [slot.letter]

/-- The arguments of an option with its value. -/
def Form.arguments (slot : Slot) (text : String) : Form → List String
  | .long => ["--" ++ slot.longName, text]
  | .longEquals => ["--" ++ slot.longName ++ "=" ++ text]
  | .short flags => ["-" ++ letters flags ++ slot.short, text]
  | .shortAttached flags => ["-" ++ letters flags ++ slot.short ++ text]
  | .shortEquals flags => ["-" ++ letters flags ++ slot.short ++ "=" ++ text]

/-- The flags in the argument of an option. -/
def Form.flags : Form → List Flag
  | .long => []
  | .longEquals => []
  | .short flags => flags
  | .shortAttached flags => flags
  | .shortEquals flags => flags

/-- Whether a value may be written in a form: in an argument of its own it would be taken for
    an option if it started with a hyphen, and right behind the letter an equals sign would
    not count as a part of it. -/
def Form.Takes (text : String) : Form → Prop
  | .long => ¬ StartsWith text '-'
  | .longEquals => True
  | .short _ => ¬ StartsWith text '-'
  | .shortAttached _ => ¬ StartsWith text '='
  | .shortEquals _ => True

namespace Piece

/-- The arguments in which a piece is written. -/
def arguments : Piece → List String
  | .word w => [w]
  | .flag f => ["--" ++ f.longName]
  | .cluster first others => ["-" ++ letters (first :: others)]
  | .value slot form text => form.arguments slot text

/-- What a piece says. -/
def items : Piece → List Item
  | .word w => [.word w]
  | .flag f => [.flag f]
  | .cluster first others => (first :: others).map .flag
  | .value slot form text => form.flags.map .flag ++ [.value slot text]

/-- Whether a piece may stand before the double hyphen. A word that starts with a hyphen may
    not, unless it is the hyphen alone. -/
def Allowed : Piece → Prop
  | .word w => StartsWith w '-' → w = "-"
  | .flag _ => True
  | .cluster _ _ => True
  | .value _ form text => form.Takes text

end Piece

/-! ## Lines -/

/-- A command line as it is written. -/
structure Line where
  pieces : List Piece
  /-- What stands behind a double hyphen, if there is one. -/
  verbatim : Option (List String)
deriving DecidableEq, Repr

namespace Line

/-- The arguments of a line. -/
def arguments (l : Line) : List String :=
  l.pieces.flatMap Piece.arguments
    ++ match l.verbatim with
      | none => []
      | some words => "--" :: words

/-- What a line says before the double hyphen. -/
def items (l : Line) : List Item := l.pieces.flatMap Piece.items

end Line

/-- The word that an item is. -/
def Item.word? : Item → Option String
  | .word w => some w
  | _ => none

/-- The value that an item gives to an option. -/
def Item.valueOf? (slot : Slot) : Item → Option String
  | .value slot' text => if slot' = slot then some text else none
  | _ => none

/-- A line is a way to write options: its words are theirs in order, each flag that is raised
    and each value that is given is written once and nothing else is, a kind under any of its
    names, and a directory under its own, which is not empty. Words and a listing exclude each
    other. -/
structure Line.Spells (l : Line) (o : Options) : Prop where
  allowed : ∀ p ∈ l.pieces, p.Allowed
  words : l.items.filterMap Item.word? ++ l.verbatim.getD [] = o.words
  json : l.items.count (.flag .json) = o.json.toNat
  list : l.items.count (.flag .list) = o.list.toNat
  kind : (l.items.filterMap (Item.valueOf? .kind)).map Kind.ofName = o.kind.toList.map .ok
  directory : l.items.filterMap (Item.valueOf? .directory) = o.directory.toList
  directory_ne : o.directory ≠ some ""
  no_words : o.list = true → o.words = []

/-! ## Steps one after another -/

section Steps

variable {ε α β : Type} {f : β → α → Except ε β} {a b : β} {x : α} {xs ys : List α}

theorem foldlM_singleton_iff : [x].foldlM f a = .ok b ↔ f a x = .ok b := by
  rw [List.foldlM_cons]
  rcases f a x with e | c
  · exact Iff.rfl
  · exact Iff.rfl

theorem foldlM_append_eq_ok_iff :
    (xs ++ ys).foldlM f a = .ok b ↔ ∃ c, xs.foldlM f a = .ok c ∧ ys.foldlM f c = .ok b := by
  rw [List.foldlM_append]
  rcases xs.foldlM f a with e | c
  · simp [bind, Except.bind]
  · simp [bind, Except.bind]

end Steps

/-! ## Recording items -/

/-- Records one item. -/
def Options.record (o : Options) : Item → Except Stop Options
  | .word w => .ok { o with words := o.words ++ [w] }
  | .flag f => raise o f
  | .value slot text => give o slot text

/-- Items that lead from some options to others: the words follow those that are there, and a
    flag or a value may be there or come once. -/
structure Adds (items : List Item) (a b : Options) : Prop where
  words : a.words ++ items.filterMap Item.word? = b.words
  json : a.json.toNat + items.count (.flag .json) = b.json.toNat
  list : a.list.toNat + items.count (.flag .list) = b.list.toNat
  kind : a.kind.toList.map .ok ++ (items.filterMap (Item.valueOf? .kind)).map Kind.ofName
    = b.kind.toList.map .ok
  directory : a.directory.toList ++ items.filterMap (Item.valueOf? .directory)
    = b.directory.toList
  directory_ne : b.directory ≠ some ""

/-- Where a list with an item in it is that of an optional value, the value is that item. -/
theorem append_cons_eq_toList {α : Type} {a b : Option α} {x : α} {rest : List α}
    (h : a.toList ++ x :: rest = b.toList) : a = none ∧ rest = [] ∧ b = some x := by
  cases a <;> cases b <;> simp_all

namespace Adds

variable {items : List Item} {a b : Options}

theorem eq_of_nil (h : Adds [] a b) : a = b := by
  obtain ⟨hwords, hjson, hlist, hkind, hdirectory, -⟩ := h
  have hflag : ∀ x y : Bool, x.toNat + 0 = y.toNat → x = y := by decide
  have hjson' : a.json = b.json := hflag _ _ hjson
  have hlist' : a.list = b.list := hflag _ _ hlist
  have hkind' : a.kind = b.kind := by
    cases hb : b.kind <;> cases ha : a.kind <;> simp_all
  have hdirectory' : a.directory = b.directory := by
    cases hb : b.directory <;> cases ha : a.directory <;> simp_all
  rw [List.filterMap_nil, List.append_nil] at hwords
  cases a
  cases b
  simp_all

/-- The first item can be recorded, and the others lead on from there. -/
theorem exists_record {item : Item} (h : Adds (item :: items) a b) :
    ∃ c, a.record item = .ok c ∧ Adds items c b := by
  obtain ⟨hwords, hjson, hlist, hkind, hdirectory, hne⟩ := h
  -- A flag that is counted once more was not raised before.
  have hflag : ∀ x y : Bool, ∀ n, x.toNat + (n + 1) = y.toNat →
      x = false ∧ true.toNat + n = y.toNat := by
    intro x y n h
    cases x <;> cases y <;> simp_all
  cases item with
  | word w =>
    refine ⟨{ a with words := a.words ++ [w] }, rfl, ?_, hjson, hlist, hkind, hdirectory, hne⟩
    simpa [Item.word?] using hwords
  | flag f =>
    cases f with
    | json =>
      rw [List.count_cons_self] at hjson
      obtain ⟨hfalse, hjson⟩ := hflag _ _ _ hjson
      refine ⟨{ a with json := true }, ?_, hwords, hjson, hlist, hkind, hdirectory, hne⟩
      simp [Options.record, raise, hfalse]
    | list =>
      rw [List.count_cons_self] at hlist
      obtain ⟨hfalse, hlist⟩ := hflag _ _ _ hlist
      refine ⟨{ a with list := true }, ?_, hwords, hjson, hlist, hkind, hdirectory, hne⟩
      simp [Options.record, raise, hfalse]
  | value slot text =>
    cases slot with
    | kind =>
      have hkind' : (a.kind.map Except.ok).toList ++ Kind.ofName text
          :: (items.filterMap (Item.valueOf? .kind)).map Kind.ofName
            = (b.kind.map Except.ok).toList := by
        simpa [Item.valueOf?, Option.toList_map] using hkind
      obtain ⟨hnone, hrest, hsome⟩ := append_cons_eq_toList hkind'
      obtain ⟨k, hk, hname⟩ := Option.map_eq_some_iff.1 hsome
      refine ⟨{ a with kind := some k }, ?_, hwords, hjson, hlist, ?_, hdirectory, hne⟩
      · have hunset : a.kind = none := Option.map_eq_none_iff.1 hnone
        simp [Options.record, give, hunset, ← hname]
      · simp [hrest, hk]
    | directory =>
      have hdirectory' : a.directory.toList ++ text
          :: items.filterMap (Item.valueOf? .directory) = b.directory.toList := by
        simpa [Item.valueOf?] using hdirectory
      obtain ⟨hnone, hrest, hsome⟩ := append_cons_eq_toList hdirectory'
      have htext : text ≠ "" := by
        rintro rfl
        exact hne hsome
      refine ⟨{ a with directory := some text }, ?_, hwords, hjson, hlist, hkind, ?_, hne⟩
      · simp [Options.record, give, hnone, htext]
      · simp [hrest, hsome]

/-- Recording items one after another gives what they add up to. -/
theorem foldlM_record (h : Adds items a b) : items.foldlM Options.record a = .ok b := by
  induction items generalizing a with
  | nil => rw [h.eq_of_nil, List.foldlM_nil]; rfl
  | cons item items ih =>
    obtain ⟨c, hrecord, hrest⟩ := h.exists_record
    rw [List.foldlM_cons, hrecord]
    exact ih hrest

end Adds

/-! ## Reading a piece -/

/-- A state stands for options if it holds them once its pending value is settled, and options
    may still follow. -/
structure State.StandsFor (s : State) (o : Options) : Prop where
  settle : s.settle = .ok o
  wordsOnly : s.wordsOnly = false

theorem State.standsFor_start : State.start.StandsFor State.start.options := ⟨rfl, rfl⟩

section Piece

variable {s : State} {o o' : Options} {slot : Slot} {text argument : String}

theorem bare_flag {f : Flag} (hs : s.StandsFor o) (h : raise o f = .ok o') :
    ∃ s', bare s (.flag f) = .ok s' ∧ s'.StandsFor o' := by
  refine ⟨{ s with options := o', pending := .nothing }, ?_, rfl, hs.wordsOnly⟩
  simp only [bare, hs.settle, h, bind, Except.bind, pure, Except.pure]

theorem attached_value (hs : s.StandsFor o) (h : give o slot text = .ok o') :
    ∃ s', attached s slot text = .ok s' ∧ s'.StandsFor o' := by
  refine ⟨{ s with options := o', pending := .nothing }, ?_, rfl, hs.wordsOnly⟩
  simp only [attached, hs.settle, h, bind, Except.bind, pure, Except.pure]

/-- An argument that does not look like an option. -/
theorem step_plain (hs : s.wordsOnly = false) (h : StartsWith text '-' → text = "-") :
    step s text = plain s text := by
  rw [step, hs]
  by_cases hstart : StartsWith text '-'
  · rw [h hstart]
    rfl
  · rcases htext : text.toList with _ | ⟨c, cs⟩
    · rfl
    · have hc : c ≠ '-' := by
        rintro rfl
        exact hstart (by rw [StartsWith, htext]; rfl)
      simp [hc]

/-- A word settles the value before it. -/
theorem step_word (hs : s.StandsFor o) (h : StartsWith text '-' → text = "-") :
    ∃ s', step s text = .ok s' ∧ s'.StandsFor { o with words := o.words ++ [text] } := by
  refine ⟨{ s with options := { o with words := o.words ++ [text] }, pending := .nothing },
    ?_, rfl, hs.wordsOnly⟩
  have hword : word s text = .ok
      { s with options := { o with words := o.words ++ [text] }, pending := .nothing } := by
    simp only [word, hs.settle, bind, Except.bind, pure, Except.pure]
  rw [step_plain hs.wordsOnly h, plain]
  split
  · next hpending =>
    -- No value is awaited, since the pending one settles.
    have hsettle := hs.settle
    rw [State.settle, hpending] at hsettle
    cases hsettle
  · exact hword

/-- A value in an argument of its own, behind the option. -/
theorem step_awaited (hs : s.StandsFor o) (htext : ¬ StartsWith text '-')
    (h : give o slot text = .ok o') :
    ∃ s₁ s₂, bare s (.slot slot) = .ok s₁ ∧ step s₁ text = .ok s₂ ∧ s₂.StandsFor o' := by
  refine ⟨{ s with options := o, pending := .awaited slot },
    { s with options := o, pending := .found slot text }, ?_, ?_, h, hs.wordsOnly⟩
  · simp only [bare, hs.settle, bind, Except.bind, pure, Except.pure]
  · exact step_plain hs.wordsOnly fun hstart => absurd hstart htext

/-- A value that is given is not empty. -/
theorem ne_empty_of_give (h : give o slot text = .ok o') : text ≠ "" := by
  rintro rfl
  cases slot with
  | kind =>
    have hname : Kind.ofName "" = .error ⟨""⟩ := rfl
    simp only [give, hname] at h
    split at h <;> cases h
  | directory =>
    simp only [give] at h
    split at h <;> cases h

/-! ### Clusters -/

/-- The flags in front of a cluster are raised one after another. -/
theorem shortOptions_flags (argument : String) (flags : List Flag) (rest : List Char)
    (hs : s.StandsFor o) (h : (flags.map Item.flag).foldlM Options.record o = .ok o') :
    ∃ s', shortOptions s argument (flags.map Flag.letter ++ rest) = shortOptions s' argument rest
      ∧ s'.StandsFor o' := by
  induction flags generalizing s o with
  | nil =>
    cases h
    exact ⟨s, rfl, hs⟩
  | cons f flags ih =>
    rw [List.map_cons, List.foldlM_cons] at h
    rcases hraise : o.record (.flag f) with stop | o₁
    · rw [hraise] at h
      cases h
    · rw [hraise] at h
      obtain ⟨s₁, hbare, hs₁⟩ := bare_flag hs hraise
      obtain ⟨s', hrest, hs'⟩ := ih hs₁ h
      refine ⟨s', ?_, hs'⟩
      rw [List.map_cons, List.cons_append, shortOptions, shortSwitch?_flag]
      simp only [hbare, bind, Except.bind]
      exact hrest

/-- An argument with one hyphen in front is read as a cluster, flags first. -/
theorem step_cluster (flags : List Flag) (rest : List Char) (hs : s.StandsFor o)
    (hargument : argument.toList = '-' :: (flags.map Flag.letter ++ rest))
    (hrest : flags = [] → ∃ c cs, rest = c :: cs ∧ c ≠ '-')
    (h : (flags.map Item.flag).foldlM Options.record o = .ok o') :
    ∃ s', step s argument = shortOptions s' argument rest ∧ s'.StandsFor o' := by
  obtain ⟨s', hshort, hs'⟩ := shortOptions_flags argument flags rest hs h
  refine ⟨s', ?_, hs'⟩
  -- What stands behind the hyphen starts with a letter.
  obtain ⟨c, cs, hletters, hc⟩ : ∃ c cs, flags.map Flag.letter ++ rest = c :: cs ∧ c ≠ '-' := by
    cases flags with
    | nil => exact hrest rfl
    | cons f flags => exact ⟨f.letter, _, rfl, by cases f <;> decide⟩
  rw [← hshort, step, hs.wordsOnly, hargument, hletters]
  simp [hc]

theorem Slot.letter_ne_hyphen (slot : Slot) : slot.letter ≠ '-' := by
  cases slot <;> decide

/-! ### Long names -/

/-- A flag under its long name. -/
theorem step_longFlag (hs : s.wordsOnly = false) (f : Flag) :
    step s ("--" ++ f.longName) = bare s (.flag f) := by
  rw [step, hs]
  cases f <;> rfl

/-- An option under its long name, without its value. -/
theorem step_longSlot (hs : s.wordsOnly = false) (slot : Slot) :
    step s ("--" ++ slot.longName) = bare s (.slot slot) := by
  rw [step, hs]
  cases slot <;> rfl

/-- An option under its long name, with its value behind an equals sign. -/
theorem step_longEquals (hs : s.wordsOnly = false) (slot : Slot) (text : String) :
    step s ("--" ++ slot.longName ++ "=" ++ text) = attached s slot text := by
  have htext : String.ofList text.toList = text := String.ofList_toList
  rw [step, hs]
  cases slot <;> simp [Slot.longName, longOption, longSwitch?, htext]

/-! ### All pieces -/

theorem attachedValue_of_not_equals (h : ¬ StartsWith text '=') :
    attachedValue text.toList = text := by
  have htext : String.ofList text.toList = text := String.ofList_toList
  rw [attachedValue.eq_def]
  split
  · next heq => exact absurd (by rw [StartsWith, heq]; rfl) h
  · exact htext

theorem toList_letters (flags : List Flag) : (letters flags).toList = flags.map Flag.letter := by
  rw [letters, String.toList_ofList]

theorem toList_short (slot : Slot) : slot.short.toList = [slot.letter] := by
  rw [Slot.short, String.toList_ofList]

/-- Reading the arguments of an option with its value records the flags in front of its letter
    and then the value. -/
theorem Form.foldlM_step {form : Form} {o₁ : Options} (hform : form.Takes text)
    (hs : s.StandsFor o) (hflags : (form.flags.map Item.flag).foldlM Options.record o = .ok o₁)
    (h : give o₁ slot text = .ok o') :
    ∃ s', (form.arguments slot text).foldlM step s = .ok s' ∧ s'.StandsFor o' := by
  cases form with
  | long =>
    cases hflags
    obtain ⟨s₁, s₂, hbare, hstep, hs₂⟩ := step_awaited hs hform h
    refine ⟨s₂, ?_, hs₂⟩
    rw [arguments, List.foldlM_cons, step_longSlot hs.wordsOnly, hbare]
    exact foldlM_singleton_iff.2 hstep
  | longEquals =>
    cases hflags
    obtain ⟨s', hattached, hs'⟩ := attached_value hs h
    refine ⟨s', foldlM_singleton_iff.2 ?_, hs'⟩
    rw [step_longEquals hs.wordsOnly, hattached]
  | short flags =>
    have hargument : ("-" ++ letters flags ++ slot.short).toList
        = '-' :: (flags.map Flag.letter ++ [slot.letter]) := by
      simp [toList_letters, toList_short]
    obtain ⟨s₁, hcluster, hs₁⟩ :=
      step_cluster flags _ hs hargument (fun _ => ⟨_, _, rfl, slot.letter_ne_hyphen⟩) hflags
    obtain ⟨s₂, s₃, hbare, hstep, hs₃⟩ := step_awaited hs₁ hform h
    refine ⟨s₃, ?_, hs₃⟩
    rw [arguments, List.foldlM_cons, hcluster]
    simp only [shortOptions, shortSwitch?_slot, if_true, hbare]
    exact foldlM_singleton_iff.2 hstep
  | shortAttached flags =>
    have hargument : ("-" ++ letters flags ++ slot.short ++ text).toList
        = '-' :: (flags.map Flag.letter ++ slot.letter :: text.toList) := by
      simp [toList_letters, toList_short]
    obtain ⟨s₁, hcluster, hs₁⟩ :=
      step_cluster flags _ hs hargument (fun _ => ⟨_, _, rfl, slot.letter_ne_hyphen⟩) hflags
    obtain ⟨s₂, hattached, hs₂⟩ := attached_value hs₁ h
    -- Something is attached, and it is taken whole.
    have hne : text.toList ≠ [] := fun hnil => ne_empty_of_give h (String.toList_eq_nil_iff.1 hnil)
    refine ⟨s₂, foldlM_singleton_iff.2 ?_, hs₂⟩
    rw [hcluster]
    simp only [shortOptions, shortSwitch?_slot, hne, if_false, attachedValue_of_not_equals hform,
      hattached]
  | shortEquals flags =>
    have hargument : ("-" ++ letters flags ++ slot.short ++ "=" ++ text).toList
        = '-' :: (flags.map Flag.letter ++ slot.letter :: '=' :: text.toList) := by
      simp [toList_letters, toList_short]
    obtain ⟨s₁, hcluster, hs₁⟩ :=
      step_cluster flags _ hs hargument (fun _ => ⟨_, _, rfl, slot.letter_ne_hyphen⟩) hflags
    obtain ⟨s₂, hattached, hs₂⟩ := attached_value hs₁ h
    have htext : String.ofList text.toList = text := String.ofList_toList
    refine ⟨s₂, foldlM_singleton_iff.2 ?_, hs₂⟩
    rw [hcluster]
    simp only [shortOptions, shortSwitch?_slot, reduceCtorEq, if_false, attachedValue, htext,
      hattached]

/-- Reading the arguments of a piece does what recording its items does. -/
theorem Piece.foldlM_step {p : Piece} (hp : p.Allowed) (hs : s.StandsFor o)
    (h : p.items.foldlM Options.record o = .ok o') :
    ∃ s', p.arguments.foldlM step s = .ok s' ∧ s'.StandsFor o' := by
  cases p with
  | word w =>
    obtain ⟨s', hstep, hs'⟩ := step_word hs hp
    cases h
    exact ⟨s', foldlM_singleton_iff.2 hstep, hs'⟩
  | flag f =>
    obtain ⟨s', hbare, hs'⟩ := bare_flag hs (foldlM_singleton_iff.1 h)
    refine ⟨s', foldlM_singleton_iff.2 ?_, hs'⟩
    rw [step_longFlag hs.wordsOnly, hbare]
  | cluster first others =>
    have hargument : ("-" ++ letters (first :: others)).toList
        = '-' :: ((first :: others).map Flag.letter ++ []) := by
      simp [toList_letters]
    obtain ⟨s', hcluster, hs'⟩ := step_cluster (first :: others) [] hs hargument nofun h
    refine ⟨s', foldlM_singleton_iff.2 ?_, hs'⟩
    rw [hcluster, shortOptions]
  | value slot form text =>
    obtain ⟨o₁, hflags, hvalue⟩ := foldlM_append_eq_ok_iff.1 h
    exact form.foldlM_step hp hs hflags (foldlM_singleton_iff.1 hvalue)

end Piece

/-! ## Reading a line -/

/-- Reading pieces one after another does what recording what they say does. -/
theorem foldlM_step_pieces {pieces : List Piece} {s : State} {o o' : Options}
    (hpieces : ∀ p ∈ pieces, p.Allowed) (hs : s.StandsFor o)
    (h : (pieces.flatMap Piece.items).foldlM Options.record o = .ok o') :
    ∃ s', (pieces.flatMap Piece.arguments).foldlM step s = .ok s' ∧ s'.StandsFor o' := by
  induction pieces generalizing s o with
  | nil =>
    cases h
    exact ⟨s, rfl, hs⟩
  | cons p pieces ih =>
    obtain ⟨hp, hpieces⟩ := List.forall_mem_cons.1 hpieces
    rw [List.flatMap_cons] at h ⊢
    obtain ⟨o₁, hfirst, hrest⟩ := foldlM_append_eq_ok_iff.1 h
    obtain ⟨s₁, hstep, hs₁⟩ := p.foldlM_step hp hs hfirst
    obtain ⟨s', hsteps, hs'⟩ := ih hpieces hs₁ hrest
    exact ⟨s', foldlM_append_eq_ok_iff.2 ⟨s₁, hstep, hsteps⟩, hs'⟩

/-- Where only words may follow, every argument is one. -/
theorem foldlM_step_words {words : List String} {s : State} {o : Options}
    (hs : s.settle = .ok o) (hwords : s.wordsOnly = true) :
    ∃ s', words.foldlM step s = .ok s' ∧ s'.settle = .ok { o with words := o.words ++ words } := by
  induction words generalizing s o with
  | nil => exact ⟨s, rfl, by rw [hs, List.append_nil]⟩
  | cons w words ih =>
    have hstep : step s w
        = .ok { s with options := { o with words := o.words ++ [w] }, pending := .nothing } := by
      simp only [step, hwords, if_true, word, hs, bind, Except.bind, pure, Except.pure]
    obtain ⟨s', hrest, hs'⟩ :=
      ih (s := { s with options := { o with words := o.words ++ [w] }, pending := .nothing })
        rfl hwords
    refine ⟨s', ?_, ?_⟩
    · rw [List.foldlM_cons, hstep]
      exact hrest
    · rw [hs', List.append_assoc, List.singleton_append]

theorem Line.Spells.adds {l : Line} {o : Options} (h : l.Spells o) :
    Adds l.items State.start.options { o with words := l.items.filterMap Item.word? } where
  words := rfl
  json := by simpa [State.start] using h.json
  list := by simpa [State.start] using h.list
  kind := h.kind
  directory := h.directory
  directory_ne := h.directory_ne

/-- A line reads as the options that it spells. -/
theorem Line.Spells.parse_eq {l : Line} {o : Options} (h : l.Spells o) :
    parse l.arguments = .ok o := by
  -- What stands before the double hyphen gives all but the words behind it.
  obtain ⟨s₁, hpieces, hs₁⟩ :=
    foldlM_step_pieces h.allowed State.standsFor_start h.adds.foldlM_record
  obtain ⟨s, hsteps, hs⟩ : ∃ s, l.arguments.foldlM step State.start = .ok s ∧
      s.settle = .ok o := by
    have hwords := h.words
    cases hverbatim : l.verbatim with
    | none =>
      refine ⟨s₁, ?_, ?_⟩
      · rw [arguments, hverbatim, List.append_nil]
        exact hpieces
      · rw [hverbatim, Option.getD_none, List.append_nil] at hwords
        rw [hs₁.settle, hwords]
    | some words =>
      rw [hverbatim, Option.getD_some] at hwords
      -- The double hyphen leaves a pending value as it is.
      have hhyphens : step s₁ "--" = .ok { s₁ with wordsOnly := true } := by
        rw [step, hs₁.wordsOnly]
        rfl
      have hsettle : State.settle { s₁ with wordsOnly := true }
          = .ok { o with words := l.items.filterMap Item.word? } := hs₁.settle
      obtain ⟨s₂, hrest, hs₂⟩ := foldlM_step_words hsettle rfl
      refine ⟨s₂, ?_, ?_⟩
      · rw [arguments, hverbatim]
        refine foldlM_append_eq_ok_iff.2 ⟨s₁, hpieces, ?_⟩
        rw [List.foldlM_cons, hhyphens]
        exact hrest
      · rw [hs₂, hwords]
  have hconflict : (o.list && !o.words.isEmpty) = false := by
    cases hlist : o.list with
    | false => rfl
    | true => rw [h.no_words hlist]; rfl
  rw [parse, hsteps]
  simp only [bind, Except.bind, hs, hconflict, pure, Except.pure, Bool.false_eq_true, if_false]

/-! ## Writing a line -/

/-- Options that a line can ask for: words and a listing exclude each other, and the name of a
    directory is not empty. -/
structure Options.Choosable (o : Options) : Prop where
  no_words : o.list = true → o.words = []
  directory_ne : o.directory ≠ some ""

/-- Options written in long forms, with all words behind the double hyphen. -/
def Options.longLine (o : Options) : Line where
  pieces :=
    List.replicate o.json.toNat (.flag .json) ++ List.replicate o.list.toNat (.flag .list)
      ++ (o.kind.toList.map fun k => .value .kind .longEquals k.singular)
      ++ o.directory.toList.map (.value .directory .longEquals)
  verbatim := some o.words

theorem ofName_singular (k : Kind) : Kind.ofName k.singular = .ok k := by
  cases k <;> rfl

theorem items_longLine (o : Options) :
    o.longLine.items
      = List.replicate o.json.toNat (.flag .json) ++ List.replicate o.list.toNat (.flag .list)
        ++ (o.kind.toList.map fun k => .value .kind k.singular)
        ++ o.directory.toList.map (.value .directory) := by
  cases hkind : o.kind <;> cases hdirectory : o.directory
    <;> simp [Options.longLine, Line.items, Piece.items, Form.flags, List.flatMap_replicate,
      hkind, hdirectory]

theorem Options.Choosable.spells_longLine {o : Options} (h : o.Choosable) :
    o.longLine.Spells o where
  allowed := by
    intro p hp
    simp only [longLine, List.mem_append, List.mem_replicate, List.mem_map] at hp
    rcases hp with ((⟨-, rfl⟩ | ⟨-, rfl⟩) | ⟨k, -, rfl⟩) | ⟨d, -, rfl⟩
    · trivial
    · trivial
    · trivial
    · trivial
  words := by
    rw [items_longLine]
    cases o.kind <;> cases o.directory
      <;> simp [Item.word?, Options.longLine, List.filterMap_replicate]
  json := by
    rw [items_longLine]
    cases o.kind <;> cases o.directory <;> simp [List.count_replicate]
  list := by
    rw [items_longLine]
    cases o.kind <;> cases o.directory <;> simp [List.count_replicate]
  kind := by
    rw [items_longLine]
    cases o.kind <;> cases o.directory
      <;> simp [Item.valueOf?, List.filterMap_replicate, ofName_singular]
  directory := by
    rw [items_longLine]
    cases o.kind <;> cases o.directory <;> simp [Item.valueOf?, List.filterMap_replicate]
  directory_ne := h.directory_ne
  no_words := h.no_words

end CommandLine

open CommandLine (Line Options)

/-- Whatever is chosen, there are lines that ask for it, and all of them mean the same: words and
    options may be mixed in any order, flags may be put together in clusters, an option may have
    its value in any of the five forms, a kind may go by any of its names, and behind a double
    hyphen every argument is a word as it stands. -/
theorem spelled_line_parses :
    (∀ o : Options, o.Choosable → ∃ l : Line, l.Spells o) ∧
      ∀ (l : Line) (o : Options), l.Spells o → CommandLine.parse l.arguments = .ok o := by
  constructor
  · intro o h
    exact ⟨o.longLine, h.spells_longLine⟩
  · intro l o h
    exact h.parse_eq

/-- A line with a cluster that ends in a value, a value in the next argument, a hyphen as a word,
    an empty word, and words behind the double hyphen that look like options. -/
def mixedLine : Line where
  pieces := [.word "a", .value .kind (.shortAttached [.json]) "Tones", .word "-",
    .value .directory .long "d=1", .word ""]
  verbatim := some ["-x", "--", ""]

/-- A listing whose kind stands behind an equals sign, with blank space around it. -/
def listingLine : Line where
  pieces := [.value .kind (.shortEquals [.list, .json]) " TONE "]
  verbatim := none

/-- The options that these lines spell, and what they are read as. -/
theorem spelled_line_parses_sample :
    CommandLine.parse ["a", "-jtTones", "-", "--data-dir", "d=1", "", "--", "-x", "--", ""]
      = .ok ⟨["a", "-", "", "-x", "--", ""], true, false, some .tone, some "d=1"⟩ ∧
    CommandLine.parse ["-ljt= TONE "] = .ok ⟨[], true, true, some .tone, none⟩ := by
  obtain ⟨-, hparse⟩ := spelled_line_parses
  have hmixed : mixedLine.Spells
      ⟨["a", "-", "", "-x", "--", ""], true, false, some .tone, some "d=1"⟩ := {
    allowed := by simp [mixedLine, CommandLine.Piece.Allowed, CommandLine.Form.Takes,
      CommandLine.StartsWith]
    words := rfl
    json := rfl
    list := rfl
    kind := rfl
    directory := rfl
    directory_ne := by decide
    no_words := nofun }
  have hlisting : listingLine.Spells ⟨[], true, true, some .tone, none⟩ := {
    allowed := List.forall_mem_singleton.2 trivial
    words := rfl
    json := rfl
    list := rfl
    kind := rfl
    directory := rfl
    directory_ne := nofun
    no_words := fun _ => rfl }
  exact ⟨hparse _ _ hmixed, hparse _ _ hlisting⟩

end Stylebook
