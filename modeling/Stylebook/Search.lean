/-
  Stylebook.Search

  Searching a catalog. An entry is found when one of its searched texts, in lower
  case, contains the query in lower case. What is found keeps the order of the
  data; there is no ranking.
-/

import Stylebook.Catalog
import Stylebook.Text.Containment

namespace Stylebook

open Json (Value)

/-! ## Entries -/

/-- The texts of an entry that a search looks at. -/
def Kind.searchTexts : (k : Kind) → k.Key → k.Fields → List String
  | .style, _, (f : Style) => [f.name, f.nameVi, f.description] ++ f.characteristics ++ f.bestFor
  | .tone, _, (f : Tone) => [f.name, f.nameVi, f.description]
  | .outline, _, (f : Outline) => [f.name, f.nameVi] ++ f.bestFor
  | .industry, _, (f : Industry) => [f.name, f.id] ++ f.topics ++ f.keywords
  | .blacklist, (key : String), (f : PhraseGroup) => [key, f.description] ++ f.phrases

/-- The texts of an entry that a search looks at. -/
def Entry.searchTexts {k : Kind} (e : Entry k) : List String :=
  k.searchTexts e.key e.record.fields

/-- Whether a needle, taken as it is, stands in a searched text in lower case. -/
def Entry.holds {k : Kind} (needle : List Char) (e : Entry k) : Bool :=
  e.searchTexts.any fun text => Text.contains needle (Text.lower text.toList)

/-! ## Matches -/

/-- An entry that was found, tagged with its collection and, in a keyed one, with its
    key. -/
structure Match (k : Kind) where
  kind : Kind
  category : Option String
  entry : Entry k

/-- An entry with its tags. -/
def Entry.tagged {k : Kind} (e : Entry k) : Match k := ⟨k, e.category?, e⟩

/-- The matches for a query in a collection, letter case aside. -/
def searchEntries {k : Kind} (entries : List (Entry k)) (query : String) : List (Match k) :=
  let needle := Text.lower query.toList
  (entries.filter (Entry.holds needle)).map Entry.tagged

/-- A match as JSON, with its tags in front. -/
def Match.toJson {k : Kind} (m : Match k) : Value :=
  .object ([("type", .string m.kind.singular)]
    ++ (match m.category with
        | some key => [("category", .string key)]
        | none => [])
    ++ [("data", m.entry.record.toJson)])

/-! ## Findings -/

/-- What a query finds: the matches in each collection, and how many they are. -/
structure Finding where
  query : String
  matched : (k : Kind) → List (Match k)
  total : Nat

/-- What a query finds in a catalog. -/
def Catalog.search (c : Catalog) (query : String) : Finding :=
  let matched := fun k => searchEntries (c.entries k) query
  { query, matched, total := Kind.all.foldr (fun k rest => (matched k).length + rest) 0 }

namespace Finding

/-- How many entries were found in a collection. -/
def count (f : Finding) (k : Kind) : Nat := (f.matched k).length

/-- Whether nothing was found. -/
def isEmpty (f : Finding) : Bool := f.total == 0

/-- A finding as JSON: the query, the matches in each collection, their number. -/
def toJson (f : Finding) : Value :=
  .object ([("query", .string f.query)]
    ++ Kind.all.map (fun k => (k.label, Value.array ((f.matched k).map Match.toJson)))
    ++ [("total", .number (.int f.total))])

end Finding

end Stylebook
