import ApiDescription.Document.Printer
import ApiDescription.Dump.Encode
import ApiDescription.Grammar.Command
import ApiDescription.Main
import ApiDescription.Proofs.Convert
import ApiDescription.Proofs.Document.CommentLines
import ApiDescription.Proofs.Document.Diagnostics
import ApiDescription.Proofs.Document.Docs
import ApiDescription.Proofs.Document.Insertion
import ApiDescription.Proofs.Document.LineEnds
import ApiDescription.Proofs.Document.Parsed
import ApiDescription.Proofs.Document.PropertyLines
import ApiDescription.Proofs.Document.Revision
import ApiDescription.Proofs.Document.RoundTrip
import ApiDescription.Proofs.Document.RouteNotes
import ApiDescription.Proofs.Document.TypeNames
import ApiDescription.Proofs.Dump.Acceptance
import ApiDescription.Proofs.Dump.RoundTrip
import ApiDescription.Proofs.Grammar.BlankLines
import ApiDescription.Proofs.Settings
import ApiDescription.Proofs.Spec.Middleware
import ApiDescription.Proofs.Spec.NormalForm
import ApiDescription.Proofs.Spec.Settings
import ApiDescription.Proofs.Spec.Strictness
import ApiDescription.Proofs.Tag
import ApiDescription.Proofs.Token.Gaps
import ApiDescription.Proofs.Token.Placement
import ApiDescription.Proofs.Token.QuotedText
import ApiDescription.Spec.Decode
import ApiDescription.Token.Scanner
