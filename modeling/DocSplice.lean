import DocSplice.Alphanumeric
import DocSplice.Bindings
import DocSplice.Diagnostic
import DocSplice.Directive
import DocSplice.Dotenv
import DocSplice.Encoding
import DocSplice.Environment
import DocSplice.Evaluation
import DocSplice.Event
import DocSplice.Failure
import DocSplice.FileTree
import DocSplice.Filter
import DocSplice.IncludeSource
import DocSplice.Json.Quoted
import DocSplice.Json.Token
import DocSplice.Json.Value
import DocSplice.Main
import DocSplice.Marker
import DocSplice.Name
import DocSplice.Options
import DocSplice.Path
import DocSplice.Position
import DocSplice.Proofs.Attempts
import DocSplice.Proofs.Body
import DocSplice.Proofs.CommandLine
import DocSplice.Proofs.Cuts
import DocSplice.Proofs.Delivery
import DocSplice.Proofs.Fallback
import DocSplice.Proofs.Grammar
import DocSplice.Proofs.Halting
import DocSplice.Proofs.Inert
import DocSplice.Proofs.Lines
import DocSplice.Proofs.Literal
import DocSplice.Proofs.Locations
import DocSplice.Proofs.Logging
import DocSplice.Proofs.Lookup
import DocSplice.Proofs.Meaning
import DocSplice.Proofs.Names
import DocSplice.Proofs.Offset
import DocSplice.Proofs.Padding
import DocSplice.Proofs.Parent
import DocSplice.Proofs.Passes
import DocSplice.Proofs.Paths
import DocSplice.Proofs.Phrases
import DocSplice.Proofs.Predefined
import DocSplice.Proofs.Reads
import DocSplice.Proofs.References
import DocSplice.Proofs.RoundTrip
import DocSplice.Proofs.Scan
import DocSplice.Proofs.Scanning
import DocSplice.Proofs.Search
import DocSplice.Proofs.Shift
import DocSplice.Proofs.Slicing
import DocSplice.Proofs.Stepping
import DocSplice.Proofs.Storage
import DocSplice.Proofs.Table
import DocSplice.Proofs.Trace
import DocSplice.Proofs.Unescape
import DocSplice.Proofs.Verbatim
import DocSplice.Run
import DocSplice.Segment
import DocSplice.Session
import DocSplice.Settings
import DocSplice.Span
import DocSplice.Text
