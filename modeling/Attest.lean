import Attest.Blake3
import Attest.Uuid
import Attest.Instant
import Attest.Json.Reader
import Attest.Json.Writer
import Attest.Text.Utf8
import Attest.Text.Distance
import Attest.Double.Arith
import Attest.Token.Lexer
import Attest.Token.Stream
import Attest.Statement.Parser
import Attest.Checker
import Attest.Node.Lowering
import Attest.Permission
import Attest.Wire
import Attest.Store
import Attest.Report.Node
import Attest.Main
import Attest.Config.Environment
import Attest.Config.Document
import Attest.Schema.Document
import Attest.Permission.Document
import Attest.Provenance.Document
import Attest.Predicate.Untyped
import Attest.Proofs.Compiler.RoundTrip
import Attest.Proofs.Store.Failure
import Attest.Proofs.Wire.Attested
import Attest.Proofs.Cbor.Canonical
import Attest.Proofs.Value.RoundTrip
import Attest.Proofs.Node.Coherence
import Attest.Proofs.Value.Order
import Attest.Proofs.Predicate.Safety
import Attest.Proofs.Permission
import Attest.Proofs.Store.Secrecy
import Attest.Proofs.Store.Conformance
import Attest.Proofs.Expr.Fold
import Attest.Proofs.Token.Layout
import Attest.Proofs.Expr.Precedence
import Attest.Proofs.Expr.Text
import Attest.Proofs.Compiler.History
import Attest.Proofs.Store.Partition
import Attest.Proofs.Clock
import Attest.Proofs.Catalog
import Attest.Proofs.Store.Effect
import Attest.Proofs.Checker.Statement
import Attest.Proofs.Node.Literals
import Attest.Proofs.Statement.Clauses
import Attest.Proofs.Compiler.Provenance
import Attest.Proofs.Cbor.Framing
import Attest.Proofs.Item.Reserved
import Attest.Proofs.Store.Ordering
import Attest.Proofs.Token.Comments
import Attest.Proofs.Sql.Grouping
import Attest.Proofs.Sql.Quoting
import Attest.Proofs.Statement.Names
import Attest.Proofs.Compiler.Sql
import Attest.Proofs.Statement.Limit
import Attest.Proofs.Statement.Nesting
import Attest.Proofs.Verifier.Fault
import Attest.Proofs.Checker.Warnings
import Attest.Proofs.Expr.Register
import Attest.Proofs.Expr.ZeroDivisor
import Attest.Proofs.Expr.Exact
import Attest.Proofs.Compiler.Cancellation
import Attest.Proofs.Text.Delimited
import Attest.Proofs.Text.Instant
import Attest.Proofs.Value.Text
import Attest.Proofs.Certificate.Identity
import Attest.Proofs.Cbor.Budget
import Attest.Proofs.Stage
import Attest.Proofs.Config.Sources
import Attest.Proofs.Scores
import Attest.Proofs.Text.Distance
import Attest.Proofs.Token.Ending
