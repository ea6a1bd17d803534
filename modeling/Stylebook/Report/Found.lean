/-
  Stylebook.Report.Found

  The report of a search: a heading with the number of matches, then a section
  for each collection in which something was found, with a blank line between
  sections. On request the finding follows as JSON behind a delimiter line.
-/

import Stylebook.Json.Write
import Stylebook.Report.Lines
import Stylebook.Search

namespace Stylebook.Report

/-- The heading of a collection's section. -/
def foundHeading : Kind → String
  | .style => "📝 Writing Styles:"
  | .tone => "🎭 Tones:"
  | .outline => "📋 Blog Structures:"
  | .industry => "🏢 Industries:"
  | .blacklist => "🚫 Blacklist Categories:"

/-- The headings of a blog structure, the Vietnamese ones if there are any. -/
def headings (f : Outline) : List String :=
  if f.sectionsVi = [] then f.sections else f.sectionsVi

/-- The text of a match behind its bullet. -/
def foundTitle : (k : Kind) → Option String → k.Fields → String
  | .style, _, (f : Style) => displayName f.name f.nameVi
  | .tone, _, (f : Tone) => displayName f.name f.nameVi
  | .outline, _, (f : Outline) => displayName f.name f.nameVi
  | .industry, _, (f : Industry) => f.name
  | .blacklist, category, (f : PhraseGroup) =>
    let key := category.getD ""
    if f.description = "" then key else key ++ ": " ++ f.description

/-- The text of a match below its bullet; it may be empty. -/
def foundDetail : (k : Kind) → k.Fields → String
  | .style, (f : Style) => f.description
  | .tone, (f : Tone) => f.description
  | .outline, (f : Outline) => labelled "Sections: " (headings f) ", ".intercalate
  | .industry, (f : Industry) => labelled "Topics: " f.topics (Text.preview topicLimit)
  | .blacklist, _ => ""

/-- The lines of a match. -/
def foundLines {k : Kind} (m : Match k) : List String :=
  let fields := m.entry.record.fields
  (bullet ++ foundTitle k m.category fields) :: detail (foundDetail k fields)

/-- The section of a collection, if anything was found in it. -/
def foundSection (f : Finding) (k : Kind) : Option (List String) :=
  if (f.matched k).isEmpty then none
  else some (foundHeading k :: (f.matched k).flatMap foundLines)

/-- The lines of a report in which something was found. -/
def foundReport (f : Finding) : List String :=
  ["", "🔍 Search Results for: '" ++ f.query ++ "'",
    "   Found " ++ toString f.total ++ " matches", ""]
    ++ [""].intercalate (Kind.all.filterMap (foundSection f))

/-- The lines of a report in which nothing was found. -/
def nothingFound (query : String) : List String :=
  ["", "❌ No results found for: '" ++ query ++ "'"]

/-- The text of a finding. -/
def findingText (f : Finding) : String :=
  Text.unlines (if f.isEmpty then nothingFound f.query else foundReport f)

/-- What stands between the text of a finding and its JSON. -/
def delimiter : String := "\n\n--- JSON Output ---\n"

/-- The report of a search. -/
def ofFinding (f : Finding) (json : Bool) : String :=
  if json then findingText f ++ delimiter ++ f.toJson.pretty else findingText f

end Stylebook.Report
