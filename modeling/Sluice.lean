import Sluice.Config.Files
import Sluice.Main
import Sluice.Proofs.Literal.Depth
import Sluice.Proofs.Literal.RoundTrip
import Sluice.Proofs.Network.Query
import Sluice.Proofs.Operator.Checksum
import Sluice.Proofs.Operator.Divisors
import Sluice.Proofs.Operator.Mode
import Sluice.Proofs.Operator.Settling
import Sluice.Proofs.Plan.Joins
import Sluice.Proofs.Pool.History
import Sluice.Proofs.Program.Append
import Sluice.Proofs.Program.Broken
import Sluice.Proofs.Program.Enclosed
import Sluice.Proofs.Program.Shape
import Sluice.Proofs.Registry.Resolution
import Sluice.Proofs.Run.Apart
import Sluice.Proofs.Run.Cancellation
import Sluice.Proofs.Run.Commute
import Sluice.Proofs.Run.Declared
import Sluice.Proofs.Run.Elementwise
import Sluice.Proofs.Run.Events
import Sluice.Proofs.Run.Feedback
import Sluice.Proofs.Run.Heard
import Sluice.Proofs.Run.PerOperator
import Sluice.Proofs.Run.Replay
import Sluice.Proofs.Run.Retries
import Sluice.Proofs.Run.Summing
import Sluice.Proofs.Run.Termination
import Sluice.Proofs.Script.Cache
import Sluice.Proofs.Source.Balanced
import Sluice.Proofs.Source.Stripping
import Sluice.Proofs.Text.Separator
import Sluice.Proofs.Value.Comparison
import Sluice.Proofs.Value.Fields
import Sluice.Proofs.Value.Sorting
import Sluice.Proofs.Walk.BranchLines
import Sluice.Proofs.Walk.Forward
