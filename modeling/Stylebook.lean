import Stylebook.Catalog
import Stylebook.CommandLine
import Stylebook.CommandLine.Help
import Stylebook.Disk
import Stylebook.Disk.Tree
import Stylebook.Invocation
import Stylebook.Json.Fault
import Stylebook.Json.Number
import Stylebook.Json.Numeral
import Stylebook.Json.Quotation
import Stylebook.Json.Read
import Stylebook.Json.Scan
import Stylebook.Json.Value
import Stylebook.Json.Write
import Stylebook.Kind
import Stylebook.Loading
import Stylebook.Main
import Stylebook.Number.Binary64
import Stylebook.Number.Scaling
import Stylebook.Number.Shortest
import Stylebook.Record
import Stylebook.Report.Found
import Stylebook.Report.Lines
import Stylebook.Report.Listing
import Stylebook.Search
import Stylebook.Settings
import Stylebook.Text.Blank
import Stylebook.Text.Casing
import Stylebook.Text.Containment
import Stylebook.Text.Layout
import Stylebook.Text.Lowercase
import Stylebook.Text.Quoted
import Stylebook.Text.Ranges
import Stylebook.Text.Undisplayed
import Stylebook.Text.Visible
import Stylebook.Proofs.Disk
import Stylebook.Proofs.Json.Tree
import Stylebook.Proofs.Json.Reader
import Stylebook.Proofs.Json.Numeral
import Stylebook.Proofs.Json.Quotation
import Stylebook.Proofs.Json.Grammar
import Stylebook.Proofs.Json.Spelling
import Stylebook.Proofs.Number.Magnitude
import Stylebook.Proofs.Number.Rounding
import Stylebook.Proofs.Number.Shortest
import Stylebook.Proofs.Number.Scaling
import Stylebook.Proofs.Json.Float
import Stylebook.Proofs.Json.RoundTrip
import Stylebook.Proofs.Json.Transcript
import Stylebook.Proofs.RecordRoundTrip
import Stylebook.Proofs.Loading
import Stylebook.Proofs.Export
import Stylebook.Proofs.TornFile
import Stylebook.Proofs.SearchExact
import Stylebook.Proofs.SearchPieces
import Stylebook.Proofs.Text.Lowered
import Stylebook.Proofs.LetterCase
import Stylebook.Proofs.Json.RepeatedKeys
import Stylebook.Proofs.Json.Phrase
import Stylebook.Proofs.Json.PhraseReading
import Stylebook.Proofs.Json.PhraseAccepted
import Stylebook.Proofs.SearchNarrowing
import Stylebook.Proofs.Acceptance
import Stylebook.Proofs.DataFile
import Stylebook.Proofs.UnreadFields
import Stylebook.Proofs.RepeatedKeys
import Stylebook.Proofs.RecordInFile
import Stylebook.Proofs.SearchDump
import Stylebook.Proofs.Invocation
import Stylebook.Proofs.Disk.Change
import Stylebook.Proofs.Isolation
import Stylebook.Proofs.TypeFilter
import Stylebook.Proofs.MissingFile
import Stylebook.Proofs.AllOrNothing
import Stylebook.Proofs.CommandLine.Spelling
import Stylebook.Proofs.Json.Literals
import Stylebook.Proofs.JsonOutput
import Stylebook.Proofs.NumbersKept
import Stylebook.Proofs.Text.Letters
import Stylebook.Proofs.Text.Lines
import Stylebook.Proofs.KindNames
import Stylebook.Proofs.Json.PrettyLines
import Stylebook.Proofs.JsonBehindText
import Stylebook.Proofs.FirstDelimiter
import Stylebook.Proofs.Json.Reordered
import Stylebook.Proofs.MemberOrder
import Stylebook.Proofs.FoundLines
import Stylebook.Proofs.ListingLines
