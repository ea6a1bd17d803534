/-
  Stylebook.Report.Listing

  The listing of a catalog: a table for each collection that has entries, each
  entry followed by a blank line, then a summary with all counts. As JSON, the
  listing is the catalog itself.
-/

import Stylebook.Catalog
import Stylebook.Json.Write
import Stylebook.Report.Lines

namespace Stylebook.Report

/-- The rule under a heading and above the summary. -/
def rule : String := String.ofList (List.replicate 50 '─')

/-- The width of the first column of a collection's table. -/
def columnWidth : Kind → Nat
  | .style => 15
  | .tone => 15
  | .outline => 15
  | .industry => 15
  | .blacklist => 20

/-- The heading of a collection's table. -/
def listHeading (k : Kind) (count : Nat) : String :=
  match k with
  | .style => "📝 Writing Styles (" ++ toString count ++ ")"
  | .tone => "🎭 Tone Variations (" ++ toString count ++ ")"
  | .outline => "📋 Blog Structures (" ++ toString count ++ ")"
  | .industry => "🏢 Industry Templates (" ++ toString count ++ ")"
  | .blacklist => "🚫 Marketing Blacklist (" ++ toString count ++ " categories)"

/-- The name of a collection in the summary. -/
def summaryName : Kind → String
  | .style => "Writing Styles"
  | .tone => "Tone Variations"
  | .outline => "Blog Structures"
  | .industry => "Industry Templates"
  | .blacklist => "Blacklist Categories"

/-- The first column of an entry: its id, or its key. -/
def listId : (k : Kind) → k.Key → k.Fields → String
  | .style, _, (f : Style) => f.id
  | .tone, _, (f : Tone) => f.id
  | .outline, _, (f : Outline) => f.id
  | .industry, _, (f : Industry) => f.id
  | .blacklist, (key : String), _ => key

/-- The second column of an entry. -/
def listTitle : (k : Kind) → k.Fields → String
  | .style, (f : Style) => displayName f.name f.nameVi
  | .tone, (f : Tone) => displayName f.name f.nameVi
  | .outline, (f : Outline) => displayName f.name f.nameVi
  | .industry, (f : Industry) => f.name
  | .blacklist, (f : PhraseGroup) => f.description

/-- The texts below the second column of an entry; empty ones are left out. -/
def listDetails : (k : Kind) → k.Fields → List String
  | .style, (f : Style) =>
    [f.description, labelled "Best for: " f.bestFor ", ".intercalate]
  | .tone, (f : Tone) => [f.description]
  | .outline, (f : Outline) =>
    [labelled "Sections: " f.sectionsVi " → ".intercalate,
      labelled "Best for: " f.bestFor ", ".intercalate]
  | .industry, (f : Industry) =>
    [labelled "Topics: " f.topics (Text.preview topicLimit),
      if f.tone = "" then "" else "Tone: " ++ f.tone]
  | .blacklist, (f : PhraseGroup) =>
    [labelled "Examples: " f.phrases (Text.preview phraseLimit)]

/-- A line of a collection's table; in the blacklist nothing blank stands at its
    end. -/
def listLine (k : Kind) (id title : String) : String :=
  let line := "  " ++ Text.padTo (columnWidth k) id ++ " " ++ title
  match k with
  | .blacklist => String.ofList (Text.trimEnd line.toList)
  | _ => line

/-- The lines of an entry, with the blank line behind them. -/
def listLines {k : Kind} (e : Entry k) : List String :=
  listLine k (listId k e.key e.record.fields) (listTitle k e.record.fields)
    :: (listDetails k e.record.fields).flatMap (column (columnWidth k)) ++ [""]

/-- The table of a collection; nothing for an empty one. -/
def listTable (c : Catalog) (k : Kind) : List String :=
  if (c.entries k).isEmpty then []
  else listHeading k (c.count k) :: rule :: (c.entries k).flatMap listLines

/-- The lines of the summary. -/
def summary (c : Catalog) : List String :=
  [rule, "", "📊 Summary:"]
    ++ Kind.all.map fun k => bullet ++ toString (c.count k) ++ " " ++ summaryName k

/-- The lines of a listing. -/
def listing (c : Catalog) : List String :=
  ["", "📚 Blog Style Reference Data", ""] ++ Kind.all.flatMap (listTable c) ++ summary c

/-- The listing of a catalog. -/
def ofCatalog (c : Catalog) (json : Bool) : String :=
  if json then c.toJson.pretty else Text.unlines (listing c)

end Stylebook.Report
