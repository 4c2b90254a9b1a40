import MixedInteger.Expression.OptionsJson
import MixedInteger.Expression.Tape
import MixedInteger.Model.Report
import MixedInteger.Proofs.Expression.Compilation
import MixedInteger.Proofs.Derivative.FirstOrder
import MixedInteger.Proofs.Derivative.SecondOrder
import MixedInteger.Proofs.Telemetry.Replay
import MixedInteger.Telemetry.Clock
import MixedInteger.Telemetry.Monitor
import MixedInteger.Telemetry.Writer
import MixedInteger.Proofs.Expression.PlainRecursion
import MixedInteger.Proofs.Expression.PolynomialDegree
import MixedInteger.Proofs.Identity.FreeList
import MixedInteger.Proofs.Identity.History
import MixedInteger.Proofs.SearchTree.History
import MixedInteger.Proofs.Telemetry.Outage
import MixedInteger.Proofs.Telemetry.Retry
import MixedInteger.Proofs.Telemetry.Separation
import MixedInteger.Proofs.Model.Building
import MixedInteger.Proofs.Model.Requests
import MixedInteger.Proofs.Model.Ownership
import MixedInteger.Proofs.Model.BackReferences
import MixedInteger.Proofs.Model.Declarations
import MixedInteger.Proofs.Model.Atomicity
import MixedInteger.Proofs.Derivative.Vanishing
import MixedInteger.Proofs.Derivative.PlainValue
import MixedInteger.Proofs.Expression.Representation
import MixedInteger.Proofs.Model.Evaluability
import MixedInteger.Proofs.Telemetry.Padding
import MixedInteger.Proofs.Telemetry.Concatenation
import MixedInteger.Proofs.Expression.Locality
import MixedInteger.Proofs.Expression.Batch
import MixedInteger.Proofs.Expression.PeakSlots
import MixedInteger.Proofs.Derivative.Support
import MixedInteger.Proofs.Model.Lagrangian
import MixedInteger.Proofs.Model.SparseRows
import MixedInteger.Proofs.Telemetry.RepeatedFields
import MixedInteger.Proofs.Telemetry.Safety
import MixedInteger.Proofs.Telemetry.FieldNumbers
import MixedInteger.Proofs.Derivative.Sparsity
import MixedInteger.Proofs.Expression.TopologicalOrder
import MixedInteger.Proofs.SearchTree.Bookkeeping
import MixedInteger.Proofs.Telemetry.Deliveries
import MixedInteger.Proofs.Expression.SearchMoves
import MixedInteger.Proofs.SearchTree.CoordinateText
import MixedInteger.Proofs.Stream.Lengths
import MixedInteger.Proofs.Identity.Numbering
import MixedInteger.Proofs.Derivative.DenseUpdate
