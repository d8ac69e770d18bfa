import AeSchema.Text.Blank
import AeSchema.Text.Lines
import AeSchema.Text.Quoted
import AeSchema.Text.Json
import AeSchema.Source.Located
import AeSchema.Token.Scan
import AeSchema.Expr.Format
import AeSchema.Expr.Outline
import AeSchema.Expr.Json
import AeSchema.Expr.Visit
import AeSchema.Program.Read
import AeSchema.Diagnostic.Report
import AeSchema.Files.Discovery
import AeSchema.Files.Tree
import AeSchema.Command.Run
import AeSchema.Main
import AeSchema.Proofs.Program.Grammar
import AeSchema.Proofs.Token.Layout
import AeSchema.Proofs.Token.Spans
import AeSchema.Proofs.Program.Reads
import AeSchema.Proofs.Program.Soundness
import AeSchema.Proofs.Program.Completeness
import AeSchema.Proofs.Token.Lines
import AeSchema.Proofs.Program.Print
import AeSchema.Proofs.Program.RoundTrip
import AeSchema.Proofs.Token.Concatenation
import AeSchema.Proofs.Program.Invariants
import AeSchema.Proofs.Program.Concatenation
import AeSchema.Proofs.Program.Earliest
import AeSchema.Proofs.Expr.Json
import AeSchema.Proofs.Expr.Outline
import AeSchema.Proofs.Program.Outline
import AeSchema.Proofs.Program.Twins
import AeSchema.Proofs.Token.Respacing
import AeSchema.Proofs.Program.Placement
import AeSchema.Proofs.Diagnostic.Located
import AeSchema.Proofs.Diagnostic.Snippet
import AeSchema.Proofs.Diagnostic.Pointer
import AeSchema.Proofs.Diagnostic.Window
import AeSchema.Proofs.Diagnostic.Underline
import AeSchema.Proofs.Files.Sources
import AeSchema.Proofs.Command.Verdicts
import AeSchema.Proofs.Text.Pretty
import AeSchema.Proofs.Command.Arguments
import AeSchema.Proofs.Command.Agreement
import AeSchema.Proofs.Command.Isolation
import AeSchema.Proofs.Command.Listing
import AeSchema.Proofs.Token.Defects
import AeSchema.Proofs.Token.Rereading
import AeSchema.Proofs.Token.Positions
import AeSchema.Proofs.Program.NestingLimit
import AeSchema.Proofs.Program.Origins
import AeSchema.Proofs.Token.Pulls
import AeSchema.Proofs.Expr.Insertions
import AeSchema.Proofs.Program.Boundaries
import AeSchema.Proofs.Files.Discovery
import AeSchema.Proofs.Program.Descent
import AeSchema.Proofs.Program.Termination
