import Scenario.Archive
import Scenario.Archive.Numbering
import Scenario.Bytes
import Scenario.Code.Cursor
import Scenario.Code.Expression
import Scenario.Code.Operand
import Scenario.Code.Reader
import Scenario.Command
import Scenario.Command.Arguments
import Scenario.Compression.Compress
import Scenario.Compression.Expand
import Scenario.Compression.Piece
import Scenario.Dialect
import Scenario.Dialect.Signature
import Scenario.Dialect.V0
import Scenario.Dialect.V1
import Scenario.Dialect.V2
import Scenario.Encoding
import Scenario.Encoding.Cp932
import Scenario.Encoding.Cp932.Table
import Scenario.Encoding.Registry
import Scenario.Encoding.Utf8
import Scenario.Error
import Scenario.Files
import Scenario.Files.Path
import Scenario.Host
import Scenario.Image
import Scenario.Json
import Scenario.Listing
import Scenario.Main
import Scenario.Note
import Scenario.Options
import Scenario.Ordered
import Scenario.Pool
import Scenario.Pool.Builder
import Scenario.Revision
import Scenario.Session
import Scenario.Sheet
import Scenario.Text.Blank
import Scenario.Text.Digit
import Scenario.Text.Numeral
import Scenario.Text.Printable
import Scenario.Text.Quoted
import Scenario.Proofs.Bytes
import Scenario.Proofs.Layout
import Scenario.Proofs.Reading
import Scenario.Proofs.Writing
import Scenario.Proofs.Expressions
import Scenario.Proofs.Tiling
import Scenario.Proofs.Sizes
import Scenario.Proofs.Listable
import Scenario.Proofs.Extending
import Scenario.Proofs.Recast
import Scenario.Proofs.Relocation
import Scenario.Proofs.Faults
import Scenario.Proofs.Traverse
import Scenario.Proofs.Unambiguous
import Scenario.Proofs.Builder
import Scenario.Proofs.Revising
import Scenario.Proofs.Readback
import Scenario.Proofs.Sections
import Scenario.Proofs.Patched
import Scenario.Proofs.References
import Scenario.Proofs.History
import Scenario.Proofs.Parsing
import Scenario.Proofs.Expanding
import Scenario.Proofs.Lookback
import Scenario.Proofs.Atomicity
import Scenario.Proofs.Calls
import Scenario.Proofs.Untouched
import Scenario.Proofs.Rereading
import Scenario.Proofs.Numerals
import Scenario.Proofs.Lines
import Scenario.Proofs.LineEnds
import Scenario.Proofs.Unedited
import Scenario.Proofs.Entries
import Scenario.Proofs.Packing
import Scenario.Proofs.Numbering
import Scenario.Proofs.Trees
import Scenario.Proofs.Repacking
import Scenario.Proofs.Outputs
import Scenario.Proofs.Refusals
import Scenario.Proofs.Exits
import Scenario.Proofs.Deduplication
import Scenario.Proofs.Nulls
import Scenario.Proofs.Repeating
import Scenario.Proofs.Groups
import Scenario.Proofs.Greedy
import Scenario.Proofs.Isolation
import Scenario.Proofs.Sequence
import Scenario.Proofs.Requests
import Scenario.Proofs.SheetGrammar
import Scenario.Proofs.Batches
import Scenario.Proofs.ListingLines
