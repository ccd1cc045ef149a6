import NodeTelemetry.Main
import NodeTelemetry.Proofs.Accumulator.Run
import NodeTelemetry.Proofs.Accumulator.WindowSum
import NodeTelemetry.Proofs.Scalar.FloatOrder
import NodeTelemetry.Proofs.Accumulator.Extremes
import NodeTelemetry.Proofs.NameMap
import NodeTelemetry.Proofs.Series
import NodeTelemetry.Proofs.Catalogue
import NodeTelemetry.Proofs.Dashboard.Run
import NodeTelemetry.Proofs.Accumulator.Set
import NodeTelemetry.Proofs.Dashboard.Rollback
import NodeTelemetry.Proofs.Computation
import NodeTelemetry.Proofs.Group.Block
import NodeTelemetry.Proofs.Scalar.Rounding
import NodeTelemetry.Proofs.Accumulator.Recall
import NodeTelemetry.Proofs.Dashboard.Rebuild
import NodeTelemetry.Proofs.Dashboard.Chronicle
import NodeTelemetry.Proofs.Engine.Pipeline
import NodeTelemetry.Proofs.Engine.Readouts
import NodeTelemetry.Proofs.Scalar.FloatRounding
import NodeTelemetry.Proofs.Engine.Order
import NodeTelemetry.Proofs.Engine.Production
import NodeTelemetry.Proofs.Dashboard.Alignment
import NodeTelemetry.Proofs.Engine.Alignment
import NodeTelemetry.Proofs.Dashboard.Consistency
import NodeTelemetry.Proofs.Engine.Consistency
import NodeTelemetry.Proofs.Accumulator.Windows
import NodeTelemetry.Proofs.Http
import NodeTelemetry.Proofs.Engine.Windows
import NodeTelemetry.Proofs.Commit.Bookkeeping
import NodeTelemetry.Proofs.Computation.Within
import NodeTelemetry.Proofs.Group.Footprint
import NodeTelemetry.Proofs.Ingestion.Completion
import NodeTelemetry.Proofs.Dashboard.Commutation
import NodeTelemetry.Proofs.Engine.Noninterference
import NodeTelemetry.Proofs.Accumulator.Views
import NodeTelemetry.Proofs.Computation.Parallel
import NodeTelemetry.Proofs.Group.Independence
import NodeTelemetry.Proofs.Accumulator.Requests
import NodeTelemetry.Proofs.Engine.Accounts
import NodeTelemetry.Proofs.Engine.Settling
import NodeTelemetry.Proofs.Engine.Conservation
import NodeTelemetry.Proofs.Engine.Lifecycle
import NodeTelemetry.Proofs.Engine.Scale
import NodeTelemetry.Proofs.Dashboard.Composition
import NodeTelemetry.Proofs.Engine.Sizes
import NodeTelemetry.Proofs.Group.Throughput
import NodeTelemetry.Proofs.Replay
import NodeTelemetry.Proofs.Series.Capacity
import NodeTelemetry.Proofs.Accumulator.Histories
import NodeTelemetry.Proofs.TransferRate
import NodeTelemetry.Proofs.Units
import NodeTelemetry.Proofs.Accumulator.Drift
import NodeTelemetry.Proofs.Computation.Plan
import NodeTelemetry.Proofs.Group.Failure
import NodeTelemetry.Proofs.Event.Recorded
