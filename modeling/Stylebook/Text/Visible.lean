/-
  Stylebook.Text.Visible

  What a terminal shows of a text. Controls show nothing, but for those that lay
  the text out: the tab, the line feed, the form feed and the carriage return. An
  escape character opens a sequence, of which nothing is shown either:

    * `[` opens a control sequence, which ends with a letter (or another character
      from `@` to `~`);
    * `]` opens a command, which ends with a bell;
    * `X`, `^` and `_` open a string, which ends with the string terminator;
    * `P` opens a device string. It starts with parameters and signs, where a
      terminator is passed over, and is a string from the first character on that
      can be neither;
    * any other character is the whole sequence, after spaces and signs up to `/`.

  A new escape character breaks off the sequence before it, and a cancel or a
  substitute ends any. A layout control is shown outside of commands and strings,
  and ends the sequence that it meets. A character beyond ASCII is passed over in a
  sequence. It ends a string if the terminator, the byte 9C, is among its bytes.

  `visibleFrom_eq_self` says that a text without controls is shown as it is.
-/

namespace Stylebook.Text

/-! ## Classes of characters -/

/-- Whether a character has its code point in a range, both ends included. -/
def within (first last : Nat) (c : Char) : Bool := first ≤ c.toNat && c.toNat ≤ last

/-- The controls that lay out a text. -/
def isLayout (c : Char) : Bool := c = '\t' || c = '\n' || c = '\x0c' || c = '\r'

/-- The controls, with the delete character. -/
def isControl (c : Char) : Bool := c.toNat < 0x20 || c = '\x7f'

/-- Whether the string terminator is among the bytes of a character in UTF-8. -/
def terminates (c : Char) : Bool := (String.utf8EncodeChar c).contains 0x9C

/-! ## Sequences -/

/-- Where in a text a character stands. -/
inductive Place where
  /-- In no sequence. -/
  | text
  /-- Behind the escape character. -/
  | escape
  /-- Behind an escape character and spaces or signs. -/
  | signs
  /-- In a control sequence. -/
  | control
  /-- In a command. -/
  | command
  /-- At the start of a device string. -/
  | device
  /-- In the parameters of a device string. -/
  | deviceParameters
  /-- In the signs of a device string. -/
  | deviceSigns
  /-- In a string. -/
  | string
deriving DecidableEq, Repr

namespace Place

/-- Whether a character at a place is shown. The next one then stands in no
    sequence. -/
def shows (p : Place) (c : Char) : Bool :=
  match p with
  | text => !isControl c || isLayout c
  | escape | signs | control => isLayout c
  | _ => false

/-- What the character behind an escape character opens. -/
def opened (c : Char) : Place :=
  if c = '[' then control
  else if c = ']' then command
  else if c = 'P' then device
  else if c = 'X' || c = '^' || c = '_' then string
  else if within 0x20 0x2F c then signs
  else if within 0x30 0x7E c then text
  else escape

/-- The place behind a character that is not shown. -/
def next (p : Place) (c : Char) : Place :=
  if c = '\x1b' then escape
  else if c = '\x18' || c = '\x1a' then text
  else
    match p with
    | text => text
    | escape => opened c
    | signs => if within 0x30 0x7E c then text else signs
    | control => if within 0x40 0x7E c then text else control
    | command => if c = '\x07' then text else command
    | device =>
      if within 0x20 0x2F c then deviceSigns
      else if within 0x30 0x3F c then deviceParameters
      else if within 0x40 0x7E c then string
      else device
    | deviceParameters =>
      if within 0x20 0x2F c then deviceSigns
      else if within 0x3C 0x7E c then string
      else deviceParameters
    | deviceSigns => if within 0x30 0x7E c then string else deviceSigns
    | string => if terminates c then text else string

end Place

/-- The characters that are shown, read from a place on. -/
def visibleFrom (p : Place) : List Char → List Char
  | [] => []
  | c :: rest =>
    if p.shows c then c :: visibleFrom .text rest else visibleFrom (p.next c) rest

/-- Where no character is a control, but for the layout, all is shown. -/
theorem visibleFrom_eq_self {cs : List Char}
    (h : ∀ c ∈ cs, isControl c = false ∨ isLayout c = true) : visibleFrom .text cs = cs := by
  induction cs with
  | nil => rfl
  | cons c rest ih =>
    have shown : Place.text.shows c = true := by
      rcases h c List.mem_cons_self with hc | hc <;> simp [Place.shows, hc]
    have tail := ih fun d hd => h d (List.mem_cons_of_mem c hd)
    rw [visibleFrom, if_pos shown, tail]

/-- What a terminal shows of a text. -/
def visible (s : String) : String := String.ofList (visibleFrom .text s.toList)

end Stylebook.Text
