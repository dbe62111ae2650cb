import SqlScript.Token.Lexing
import SqlScript.Cursor.Operation
import SqlScript.Annotated.Statements
import SqlScript.Report
import SqlScript.Main
import SqlScript.Proofs.Token.Slices
import SqlScript.Proofs.Splitter.Boundaries
import SqlScript.Proofs.Splitter.Conservation
import SqlScript.Proofs.Event.Locality
import SqlScript.Proofs.Splitter.Settled
import SqlScript.Proofs.Splitter.Concatenation
import SqlScript.Proofs.Splitter.Idempotence
import SqlScript.Proofs.Event.Scanning
import SqlScript.Proofs.Splitter.LineEndings
import SqlScript.Proofs.Text.Trim
import SqlScript.Proofs.Splitter.Transport
import SqlScript.Proofs.Splitter.OpenBlocks
import SqlScript.Proofs.Source.Splitting
import SqlScript.Proofs.Annotated.Delimited
import SqlScript.Proofs.Splitter.Flushing
import SqlScript.Proofs.Cursor.Interleaving
import SqlScript.Proofs.Utf8.Decoding
import SqlScript.Proofs.Annotated.Reading
import SqlScript.Proofs.Toml.Escaping
import SqlScript.Proofs.Toml.Strings
import SqlScript.Proofs.FileTree.Writing
import SqlScript.Proofs.Settings.Saving
import SqlScript.Json.Reader
import SqlScript.Proofs.Json.Reading
import SqlScript.Proofs.Json.Layout
import SqlScript.Report.Reader
import SqlScript.Proofs.Report.Lossless
import SqlScript.Proofs.CommandLine.AllOrNothing
import SqlScript.Proofs.Event.Searching
import SqlScript.Proofs.Token.Bodies
import SqlScript.Proofs.Splitter.History
import SqlScript.Proofs.Token.Literals
import SqlScript.Proofs.Event.Agreement
import SqlScript.Proofs.Token.Comments
import SqlScript.Proofs.Annotated.Grammar
import SqlScript.Proofs.Annotated.Continuation
import SqlScript.Proofs.Annotated.LineEndings
import SqlScript.Proofs.Annotated.CommentsOnly
import SqlScript.Proofs.Splitter.Progress
