/-
  Stylebook.Catalog

  Entries of the collections and the catalog that holds all of them. Four
  collections are lists of records; the blacklist keeps its records under keys,
  and the key is part of the entry. Everything that is the same for all kinds is
  said once, for an entry of any kind.
-/

import Stylebook.Record

namespace Stylebook

open Json (Value Mismatch)

/-- What an entry has besides its record: its key in a keyed collection, nothing in
    a list. -/
def Kind.Key : Kind → Type
  | .style => Unit
  | .tone => Unit
  | .outline => Unit
  | .industry => Unit
  | .blacklist => String

/-- An entry of a collection. -/
structure Entry (k : Kind) where
  key : k.Key
  record : Record k

/-- The key of an entry, as its category, in a keyed collection. -/
def Kind.category? : (k : Kind) → k.Key → Option String
  | .style, _ => none
  | .tone, _ => none
  | .outline, _ => none
  | .industry, _ => none
  | .blacklist, key => some key

/-- The category of an entry. -/
def Entry.category? {k : Kind} (e : Entry k) : Option String := k.category? e.key

/-! ## Collections from JSON -/

/-- The entries in a list of records. -/
def listEntries (k : Kind) (key : k.Key) : Value → Except Mismatch (List (Entry k))
  | .array items => items.mapM fun v => (Record.ofValue k v).map fun r => ⟨key, r⟩
  | other => .error ⟨other.shape, .sequence⟩

/-- The entries in an object of blacklisted groups. -/
def keyedEntries : Value → Except Mismatch (List (Entry .blacklist))
  | .object members =>
    members.mapM fun m => (Record.ofValue .blacklist m.2).map fun r => ⟨m.1, r⟩
  | other => .error ⟨other.shape, .map⟩

/-- The entries in the value under a collection's key. -/
def Kind.entriesOf : (k : Kind) → Value → Except Mismatch (List (Entry k))
  | .style => listEntries .style ()
  | .tone => listEntries .tone ()
  | .outline => listEntries .outline ()
  | .industry => listEntries .industry ()
  | .blacklist => keyedEntries

/-- The value under a collection's key in a document; none in an empty document,
    or when it is null. -/
def Kind.bodyOf? (k : Kind) : Value → Except Mismatch (Option Value)
  | .null => .ok none
  | .array [] => .ok none
  | .object members =>
    match members.lookup k.dataKey with
    | some .null => .ok none
    | other => .ok other
  | other => .error ⟨other.shape, .map⟩

/-- The entries in a document. -/
def Kind.entriesIn (k : Kind) (document : Value) : Except Mismatch (List (Entry k)) :=
  match k.bodyOf? document with
  | .error m => .error m
  | .ok none => .ok []
  | .ok (some body) => k.entriesOf body

/-! ## Collections to JSON -/

/-- A list of entries as JSON: an array of records. -/
def listJson {k : Kind} (entries : List (Entry k)) : Value :=
  .array (entries.map (·.record.toJson))

/-- Keyed entries as JSON: an object of records. -/
def keyedJson (entries : List (Entry .blacklist)) : Value :=
  .object (entries.map fun e => (e.key, e.record.toJson))

/-- The entries of a collection as JSON, in the form in which they were read. -/
def Kind.entriesJson : (k : Kind) → List (Entry k) → Value
  | .style => listJson
  | .tone => listJson
  | .outline => listJson
  | .industry => listJson
  | .blacklist => keyedJson

/-! ## Catalogs -/

/-- The entries of every collection. -/
structure Catalog where
  entries : (k : Kind) → List (Entry k)

namespace Catalog

/-- The catalog without entries. -/
def empty : Catalog := ⟨fun _ => []⟩

/-- A catalog with one collection replaced. -/
def set (c : Catalog) (k : Kind) (entries : List (Entry k)) : Catalog where
  entries j := if h : k = j then h ▸ entries else c.entries j

/-- How many entries a collection has. -/
def count (c : Catalog) (k : Kind) : Nat := (c.entries k).length

/-- Whether no collection has an entry. -/
def isEmpty (c : Catalog) : Bool := Kind.all.all fun k => c.count k == 0

/-- A catalog as JSON: every collection under its label. -/
def toJson (c : Catalog) : Value :=
  .object (Kind.all.map fun k => (k.label, k.entriesJson (c.entries k)))

end Catalog

end Stylebook
