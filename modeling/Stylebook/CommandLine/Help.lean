/-
  Stylebook.CommandLine.Help

  The fixed texts of the command line: help, version, usage.
-/

import Stylebook.Text.Layout

namespace Stylebook.CommandLine

/-- The line that shows the form of a call. -/
def usageLine : String := "Usage: blog-style [OPTIONS] [QUERY]..."

/-- The text for a call without a query. -/
def usage : String :=
  Text.unlines
    [usageLine,
      "Example: blog-style tutorial",
      "         blog-style saas --json",
      "         blog-style friendly --type tone"]

/-- The text that `--help` shows, with the line feed at its end. -/
def helpText : String :=
  Text.unlines
    ["Search writing styles, tones, blog structures, industry templates and the marketing blacklist",
      "",
      usageLine,
      "",
      "Arguments:",
      "  [QUERY]...  Search terms, joined with spaces into one query",
      "",
      "Options:",
      "  -j, --json            Also print the full results as JSON after the text output",
      "  -t, --type <KIND>     Only search (or list) one collection: style, tone, structure, industry or blacklist",
      "  -l, --list            List every record instead of searching",
      "  -d, --data-dir <DIR>  Directory holding the reference JSON files (overrides BLOG_STYLE_DATA_DIR)",
      "  -h, --help            Print help",
      "  -V, --version         Print version",
      ""]

/-- The text that `--version` shows, with the line feed at its end. -/
def versionText : String := "blog-style 0.1.0\n"

end Stylebook.CommandLine
