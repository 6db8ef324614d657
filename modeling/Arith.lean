import Arith.Expr.Depth
import Arith.Expr.Postorder
import Arith.Main
import Arith.Proofs.Acceptance
import Arith.Proofs.Evaluation
import Arith.Proofs.Inorder
import Arith.Proofs.LimitErrors
import Arith.Proofs.OnePass
import Arith.Proofs.Parser.Cursor
import Arith.Proofs.RoundTrip
import Arith.Proofs.SyntaxErrors
import Arith.Trace
import Arith.Proofs.Relocation
import Arith.Proofs.Context
import Arith.Proofs.Substitution
import Arith.Proofs.Appending
import Arith.Proofs.Enclosing
import Arith.Proofs.Parser.Reductions
import Arith.Proofs.Records
import Arith.Proofs.Parser.Progress
import Arith.Proofs.Parser.Shifting
import Arith.Proofs.Parser.Lookahead
import Arith.Proofs.Parser.Allowance
import Arith.Proofs.Recovery
import Arith.Proofs.Numerals
import Arith.Proofs.Shape
import Arith.Proofs.Readback
import Arith.Proofs.Alphabet
import Arith.Proofs.Scanning
import Arith.Proofs.Spelling
import Arith.Proofs.Skipping
import Arith.Proofs.Messages
import Arith.Proofs.Budget
import Arith.Proofs.Folding
import Arith.Proofs.Modes
import Arith.Proofs.Log
