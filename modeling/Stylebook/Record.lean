/-
  Stylebook.Record

  Records of the reference data: the object of the data file as it stands, and
  the fields that are read from it.

  Which values a field may hold is decided by `Kind.searched`: under these keys
  stand texts and lists of texts, and nothing else is accepted there. All other
  fields are only shown; they are read from whatever is there. So a record is
  accepted by a walk over its members, and its fields are look-ups by key, which
  the order of the members cannot change.
-/

import Stylebook.Json.Read
import Stylebook.Kind

namespace Stylebook

open Json (Value Members Mismatch)

/-! ## Fields -/

/-- A writing style. -/
structure Style where
  id : String
  name : String
  nameVi : String
  description : String
  characteristics : List String
  bestFor : List String
deriving DecidableEq, Repr

/-- A tone variation. -/
structure Tone where
  id : String
  name : String
  nameVi : String
  description : String
deriving DecidableEq, Repr

/-- The structure of a blog post, with its section headings in order. -/
structure Outline where
  id : String
  name : String
  nameVi : String
  bestFor : List String
  sections : List String
  sectionsVi : List String
deriving DecidableEq, Repr

/-- An industry template. -/
structure Industry where
  id : String
  name : String
  topics : List String
  keywords : List String
  tone : String
deriving DecidableEq, Repr

/-- A group of marketing phrases to avoid. -/
structure PhraseGroup where
  description : String
  phrases : List String
deriving DecidableEq, Repr

/-- The fields of a record of a kind. -/
def Kind.Fields : Kind → Type
  | .style => Style
  | .tone => Tone
  | .outline => Outline
  | .industry => Industry
  | .blacklist => PhraseGroup

/-! ## Reading members -/

/-- The text of a string value. -/
def textOf? : Value → Option String
  | .string s => some s
  | _ => none

/-- The text under a key; none is the empty one. -/
def textAt (members : Members) (key : String) : String :=
  ((members.lookup key).bind textOf?).getD ""

/-- The texts in a list. -/
def textsOf : Value → List String
  | .array items => items.filterMap textOf?
  | _ => []

/-- The texts in the list under a key. -/
def textsAt (members : Members) (key : String) : List String :=
  ((members.lookup key).map textsOf).getD []

/-- A value as text, for showing: scalars as they are written, nothing for the
    rest. -/
def shown : Value → String
  | .string s => s
  | .number n => String.ofList n.spell
  | .bool true => "true"
  | .bool false => "false"
  | _ => ""

/-- The value under a key as text. -/
def shownAt (members : Members) (key : String) : String :=
  ((members.lookup key).map shown).getD ""

/-- The fields that the members of an object hold. -/
def Kind.fieldsOf : (k : Kind) → Members → k.Fields
  | .style, m => ({
      id := shownAt m "id"
      name := textAt m "name"
      nameVi := textAt m "nameVi"
      description := textAt m "description"
      characteristics := textsAt m "characteristics"
      bestFor := textsAt m "bestFor" } : Style)
  | .tone, m => ({
      id := shownAt m "id"
      name := textAt m "name"
      nameVi := textAt m "nameVi"
      description := textAt m "description" } : Tone)
  | .outline, m => ({
      id := shownAt m "id"
      name := textAt m "name"
      nameVi := textAt m "nameVi"
      bestFor := textsAt m "bestFor"
      sections := textsAt m "sections"
      sectionsVi := textsAt m "sectionsVi" } : Outline)
  | .industry, m => ({
      id := textAt m "id"
      name := textAt m "name"
      topics := textsAt m "topics"
      keywords := textsAt m "keywords"
      tone := shownAt m "tone" } : Industry)
  | .blacklist, m => ({
      description := textAt m "description"
      phrases := textsAt m "phrases" } : PhraseGroup)

/-! ## Acceptance -/

/-- What has to stand under a searched key. -/
inductive FieldShape where
  | text
  | texts
deriving DecidableEq, Repr

/-- The keys that a search looks under, in its order, and what stands there. -/
def Kind.searched : Kind → List (String × FieldShape)
  | .style => [("name", .text), ("nameVi", .text), ("description", .text),
      ("characteristics", .texts), ("bestFor", .texts)]
  | .tone => [("name", .text), ("nameVi", .text), ("description", .text)]
  | .outline => [("name", .text), ("nameVi", .text), ("bestFor", .texts)]
  | .industry => [("name", .text), ("id", .text), ("topics", .texts), ("keywords", .texts)]
  | .blacklist => [("description", .text), ("phrases", .texts)]

/-- The complaint about a value that is not a string. -/
def notText? : Value → Option Mismatch
  | .string _ => none
  | v => some ⟨v.shape, .string⟩

/-- The complaint about a value under a searched key; in a list, about its first
    item that is not a string. -/
def FieldShape.mismatch? : FieldShape → Value → Option Mismatch
  | .text, v => notText? v
  | .texts, .array items => items.findSome? notText?
  | .texts, v => some ⟨v.shape, .sequence⟩

/-- The complaint about one member of a record. -/
def Kind.memberMismatch? (k : Kind) (member : String × Value) : Option Mismatch :=
  (k.searched.lookup member.1).bind (·.mismatch? member.2)

/-- The first complaint about the members of a record, in their order. -/
def Kind.mismatch? (k : Kind) (members : Members) : Option Mismatch :=
  members.findSome? k.memberMismatch?

/-! ## Records -/

/-- A record: its fields, and the object they were read from. -/
structure Record (k : Kind) where
  fields : k.Fields
  raw : Members

namespace Record

/-- The record that an object holds. -/
def ofMembers (k : Kind) (members : Members) : Except Mismatch (Record k) :=
  match k.mismatch? members with
  | some m => .error m
  | none => .ok ⟨k.fieldsOf members, members⟩

/-- The record that a value holds; it has to be an object. -/
def ofValue (k : Kind) : Value → Except Mismatch (Record k)
  | .object members => ofMembers k members
  | other => .error ⟨other.shape, .map⟩

/-- The record in a text. -/
def parse (k : Kind) (text : String) : Except Json.Fault (Record k) :=
  Json.parseObject (ofMembers k) text

/-- A record as JSON: the object as it stood. -/
def toJson {k : Kind} (r : Record k) : Value := .object r.raw

end Record

end Stylebook
