import RequestBook.Arguments
import RequestBook.Arguments.Page
import RequestBook.Block
import RequestBook.Block.Construct
import RequestBook.Book
import RequestBook.BookTest.Category
import RequestBook.BookTest.Check
import RequestBook.BookTest.Expectations
import RequestBook.BookTest.FrontMatter
import RequestBook.BookTest.Suite
import RequestBook.Calendar.Date
import RequestBook.Calendar.Pattern
import RequestBook.Calendar.Reader
import RequestBook.Calendar.Span
import RequestBook.Calendar.Timestamp
import RequestBook.Command
import RequestBook.CommandLine
import RequestBook.Diagnostic
import RequestBook.Draws
import RequestBook.Engine
import RequestBook.Environment
import RequestBook.Evaluator
import RequestBook.Expression
import RequestBook.Expression.Operand
import RequestBook.Extraction
import RequestBook.Fields
import RequestBook.FileTree
import RequestBook.Formats
import RequestBook.Grammar
import RequestBook.IdentityNumber
import RequestBook.Json
import RequestBook.Json.Reader
import RequestBook.Main
import RequestBook.Number.Binary64
import RequestBook.Number.Shortest
import RequestBook.Number.Word
import RequestBook.Outline
import RequestBook.Outline.Dump
import RequestBook.Path
import RequestBook.Placeholder
import RequestBook.Proofs.Accounting
import RequestBook.Proofs.Answering
import RequestBook.Proofs.Applying
import RequestBook.Proofs.Authoring
import RequestBook.Proofs.Blanking
import RequestBook.Proofs.Checking
import RequestBook.Proofs.Childless
import RequestBook.Proofs.Choosing
import RequestBook.Proofs.Days
import RequestBook.Proofs.Decoding
import RequestBook.Proofs.Detecting
import RequestBook.Proofs.Digits
import RequestBook.Proofs.Drawing
import RequestBook.Proofs.Excerpt
import RequestBook.Proofs.Extracting
import RequestBook.Proofs.Forest
import RequestBook.Proofs.Identifying
import RequestBook.Proofs.Invoking
import RequestBook.Proofs.Labelling
import RequestBook.Proofs.Layout
import RequestBook.Proofs.LineEnds
import RequestBook.Proofs.Linking
import RequestBook.Proofs.Locality
import RequestBook.Proofs.Moving
import RequestBook.Proofs.Naming
import RequestBook.Proofs.Numbering
import RequestBook.Proofs.Numerals
import RequestBook.Proofs.Overriding
import RequestBook.Proofs.Parts
import RequestBook.Proofs.Pointing
import RequestBook.Proofs.Printing
import RequestBook.Proofs.Reading
import RequestBook.Proofs.Resolving
import RequestBook.Proofs.Restoring
import RequestBook.Proofs.Running
import RequestBook.Proofs.Scanning
import RequestBook.Proofs.Sections
import RequestBook.Proofs.Services
import RequestBook.Proofs.Settling
import RequestBook.Proofs.Shifting
import RequestBook.Proofs.Spelling
import RequestBook.Proofs.Splitting
import RequestBook.Proofs.Stepping
import RequestBook.Proofs.Taking
import RequestBook.Proofs.Targeting
import RequestBook.Proofs.Tidying
import RequestBook.Proofs.Trim
import RequestBook.Proofs.Walking
import RequestBook.Report
import RequestBook.Request
import RequestBook.Request.Json
import RequestBook.Request.Line
import RequestBook.Run
import RequestBook.Section
import RequestBook.Text
import RequestBook.Text.Case
import RequestBook.Text.CaseTable
import RequestBook.Text.HiddenTable
import RequestBook.Text.Lines
import RequestBook.Text.Quoted
import RequestBook.Text.Regex
import RequestBook.Toml
import RequestBook.Toml.Moment
import RequestBook.Toml.Reader
import RequestBook.Toml.Scalar
import RequestBook.Toml.Table
import RequestBook.Transport
import RequestBook.UniqueId
import RequestBook.Value
import RequestBook.Proofs.Composing
import RequestBook.Proofs.Joining
import RequestBook.Proofs.Serving
import RequestBook.Proofs.Reprinting
import RequestBook.Proofs.Extending
import RequestBook.Proofs.Touring
import RequestBook.Proofs.Warning
import RequestBook.Proofs.Delimiting
import RequestBook.Proofs.Amounts
