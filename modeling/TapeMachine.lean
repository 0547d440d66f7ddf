import TapeMachine.Main
import TapeMachine.Session
import TapeMachine.Proofs.Agreement
import TapeMachine.Proofs.Cancel
import TapeMachine.Proofs.Caret
import TapeMachine.Proofs.Counting
import TapeMachine.Proofs.Delivery
import TapeMachine.Proofs.Dispatch
import TapeMachine.Proofs.Exact
import TapeMachine.Proofs.Excerpt
import TapeMachine.Proofs.FirstFailure
import TapeMachine.Proofs.Folding
import TapeMachine.Proofs.Foresight
import TapeMachine.Proofs.Frame
import TapeMachine.Proofs.Limit
import TapeMachine.Proofs.Locality
import TapeMachine.Proofs.Loops
import TapeMachine.Proofs.Precedence
import TapeMachine.Proofs.Recurrence
import TapeMachine.Proofs.Refinement
import TapeMachine.Proofs.Residue
import TapeMachine.Proofs.Retry
import TapeMachine.Proofs.Rounds
import TapeMachine.Proofs.Safety
import TapeMachine.Proofs.Sections
import TapeMachine.Proofs.Serving
import TapeMachine.Proofs.Shift
import TapeMachine.Proofs.Skeleton
import TapeMachine.Proofs.TotalMap
import TapeMachine.Proofs.Unmatched
import TapeMachine.Proofs.Copying
import TapeMachine.Proofs.Reversal
