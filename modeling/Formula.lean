import Formula.Algebra
import Formula.Engine.Inspection
import Formula.Main
import Formula.Trace
import Formula.Proofs.Depth
import Formula.Proofs.Postorder
import Formula.Proofs.Evaluation
import Formula.Proofs.Compilation
import Formula.Proofs.Execution
import Formula.Proofs.Agreement
import Formula.Proofs.Declaration
import Formula.Proofs.Replay
import Formula.Proofs.Validation
import Formula.Proofs.Naming
import Formula.Proofs.Generation
import Formula.Proofs.Session
import Formula.Proofs.Emission
import Formula.Proofs.Calling
import Formula.Proofs.Rounding
import Formula.Proofs.Numeral
import Formula.Proofs.Spelling
import Formula.Proofs.Unambiguity
import Formula.Proofs.Arguments
import Formula.Proofs.Printing
import Formula.Proofs.CommandLine
import Formula.Proofs.Balance
import Formula.Proofs.CallOrder
import Formula.Proofs.History
import Formula.Proofs.Substitution
import Formula.Proofs.Unused
import Formula.Proofs.Equality
import Formula.Proofs.Listing
import Formula.Proofs.Pattern
import Formula.Proofs.Value
import Formula.Proofs.Nearest
import Formula.Proofs.Coarsest
import Formula.Proofs.Readback
import Formula.Proofs.Significance
import Formula.Proofs.Compact
import Formula.Proofs.Tracing
import Formula.Proofs.Profile
import Formula.Proofs.Comparison
import Formula.Proofs.Duality
import Formula.Proofs.Messages
