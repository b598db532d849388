import Resumable.Expr.Json
import Resumable.Main
import Resumable.Proofs.Machine.Conversation
import Resumable.Proofs.Machine.Calls
import Resumable.Proofs.Source.Pieces
import Resumable.Proofs.Machine.Invariant
import Resumable.Proofs.Machine.Requests
import Resumable.Proofs.Decimal.Literal
import Resumable.Proofs.Machine.Rebuilding
import Resumable.Proofs.Expr.Spelling
import Resumable.Proofs.Expr.Precedence
import Resumable.Proofs.Expr.Extent
import Resumable.Proofs.Expr.Rendering
import Resumable.Proofs.Expr.Shortcuts
import Resumable.Proofs.Json.Numerals
import Resumable.Proofs.Json.Writing
import Resumable.Proofs.Value.Tagged
import Resumable.Proofs.Machine.Keeping
import Resumable.Proofs.Expr.Plain
import Resumable.Proofs.Machine.Control
import Resumable.Proofs.Expr.Whole
import Resumable.Proofs.Source.Cuts
import Resumable.Proofs.Machine.Renumbering
import Resumable.Proofs.Machine.Outline
import Resumable.Proofs.Machine.Joining
import Resumable.Proofs.Command.Transcript
import Resumable.Proofs.Source.Normal
import Resumable.Proofs.Statement.Parts
import Resumable.Proofs.Machine.Raising
import Resumable.Proofs.Statement.Declaring
import Resumable.Proofs.Machine.Places
import Resumable.Proofs.Statement.Address
import Resumable.Proofs.Expr.Names
import Resumable.Proofs.Statement.Observed
import Resumable.Proofs.Double.Nearest
import Resumable.Proofs.Decimal.Signed
import Resumable.Proofs.Value.Numbers
import Resumable.Proofs.Fields.Ascending
import Resumable.Proofs.Value.Equality
import Resumable.Proofs.Value.Exchange
import Resumable.Proofs.Value.Wholes
import Resumable.Proofs.Expr.Indexing
import Resumable.Proofs.Expr.Smallness
import Resumable.Proofs.Toml.Strings
import Resumable.Proofs.Toml.Lines
import Resumable.Proofs.Settings.Reloading
