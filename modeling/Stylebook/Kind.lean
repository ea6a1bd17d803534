/-
  Stylebook.Kind

  The five collections of reference data, their names, and the file and key under
  which each is kept. `Kind.ofName?` reads a name as a person types it: white
  space around it and letter case do not matter, singular and plural both do.
-/

import Stylebook.Text.Blank
import Stylebook.Text.Layout
import Stylebook.Text.Lowercase

namespace Stylebook

/-- A collection of reference data. An outline is the structure of a blog post. -/
inductive Kind where
  | style
  | tone
  | outline
  | industry
  | blacklist
deriving DecidableEq, Repr

namespace Kind

/-- The collections in the order in which they are always shown. -/
def all : List Kind := [.style, .tone, .outline, .industry, .blacklist]

/-- The name of one record's collection. -/
def singular : Kind → String
  | .style => "style"
  | .tone => "tone"
  | .outline => "structure"
  | .industry => "industry"
  | .blacklist => "blacklist"

/-- The other name that is understood for a collection. -/
def plural : Kind → String
  | .style => "styles"
  | .tone => "tones"
  | .outline => "structures"
  | .industry => "industries"
  | .blacklist => "blacklists"

/-- The key of a collection in everything that is written as JSON. -/
def label : Kind → String
  | .style => "styles"
  | .tone => "tones"
  | .outline => "structures"
  | .industry => "industries"
  | .blacklist => "blacklist"

/-- The key around the records in the data file. -/
def dataKey : Kind → String
  | .style => "styles"
  | .tone => "tones"
  | .outline => "structures"
  | .industry => "industries"
  | .blacklist => "categories"

/-- The name of the data file. -/
def fileName : Kind → String
  | .style => "writing-styles.json"
  | .tone => "tone-variations.json"
  | .outline => "blog-structures.json"
  | .industry => "industry-templates.json"
  | .blacklist => "marketing-blacklist.json"

/-- Whether a name, in lower case, is the singular or the plural of a kind. -/
def isNamed (name : List Char) (k : Kind) : Bool :=
  name == k.singular.toList || name == k.plural.toList

/-- The collection that a name stands for. -/
def ofName? (name : String) : Option Kind :=
  all.find? (isNamed (Text.lower (Text.trim name.toList)))

end Kind

/-- A name that stands for no collection, as it was given. -/
structure UnknownKind where
  name : String
deriving DecidableEq, Repr

/-- The wording of an unknown name. -/
def UnknownKind.message (u : UnknownKind) : String :=
  "unknown collection: '" ++ u.name ++ "' (expected one of: "
    ++ ", ".intercalate (Kind.all.map Kind.singular) ++ ")"

/-- The collection that a name stands for, or the complaint about it. -/
def Kind.ofName (name : String) : Except UnknownKind Kind :=
  match ofName? name with
  | some k => .ok k
  | none => .error ⟨name⟩

end Stylebook
