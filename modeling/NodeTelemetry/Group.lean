import NodeTelemetry.Computation
import NodeTelemetry.Readout

/-!
Groups: the independent parts of the work on a block sample. A group feeds the sample into its
accumulators and answers with updates; it may instead fail or break off, which reads as a failure too.

Three groups work on every block sample. Timing shows how long the parts of pushing a block take, and
how full payloads are; throughput shows blocks and transactions per second, measured between the
arrivals of the first and the last block in the window, and automated transactions per block;
transactions shows how many transactions, and how many of the system, a block holds.
-/

set_option autoImplicit false

namespace NodeTelemetry

inductive GroupOutcome (α : Type) where
  | updates (updates : List (Update α))
  | failed (error : EngineError)
  | panicked (text : Option String)

/-- One part of the work on a block sample that arrived at a given time. -/
structure Group (α : Type) where
  kind : GroupKind
  compute : BlockSample → Int64 → AccumulatorSet α → GroupOutcome α × AccumulatorSet α

namespace Group

variable {α : Type}

/-- The updates of a group of some kind, or the error that it counts as. -/
def settled (kind : GroupKind) : GroupOutcome α → Except EngineError (List (Update α))
  | .updates updates => .ok updates
  | .failed error => .error error
  | .panicked text => .error (.computation kind (.panicked text))

variable [Scalar α]

def ofComputation (kind : GroupKind)
    (computation : BlockSample → Int64 → Computation α (List (Update α))) : Group α where
  kind := kind
  compute sample receivedAt set :=
    match (computation sample receivedAt).run set with
    | (.ok updates, after) => (.updates updates, after)
    | (.error error, after) => (.failed error, after)

/-- The readout of an accumulated metric after a block, behind its point if the metric has a chart. -/
def averaged (metric : Metric) (height : α) (accumulator : Accumulator α) : List (Update α) :=
  let average := accumulator.average
  let readout := .readout (.render metric.descriptor (.of average accumulator.max))
  if metric.descriptor.charted then [.point metric.name height average, readout] else [readout]

end Group

end NodeTelemetry

namespace NodeTelemetry.Group

/-! ### Timing -/

namespace Timing

variable {α : Type} [Scalar α]

open Scalar (ofInt ofWord)
open NodeTelemetry.Computation (reach feed)

/-- The parts of the push time in display order. The push time itself comes first, and the shares of
the others are taken of it. -/
def components : List (Metric × (BlockSample → UInt64)) :=
  [(.pushTime, (·.totalTime)), (.validationTime, (·.validationTime)), (.txLoopTime, (·.txLoopTime)),
    (.housekeepingTime, (·.housekeepingTime)), (.txApplyTime, (·.txApplyTime)), (.atTime, (·.atTime)),
    (.subscriptionTime, (·.subscriptionTime)), (.blockApplyTime, (·.blockApplyTime)),
    (.commitTime, (·.commitTime)), (.miscTime, (·.miscTime))]

def wholeOf (x : α) : α := ofInt (Label.whole x)

/-- The point and the readout of one part, in whole milliseconds. -/
def component (metric : Metric) (height pushAverage : α) (accumulator : Accumulator α) :
    List (Update α) :=
  let average := wholeOf accumulator.average
  [.point metric.name height average,
    .readout (.render metric.descriptor
      { Reading.of average (wholeOf accumulator.max) with total := pushAverage })]

/-- How full the payload is, by the averages and by the sample itself. -/
def payloadReading (sample : BlockSample) (payload : Accumulator α) : Reading α :=
  let largest : α := ofWord sample.maxPayloadSize
  { value := Label.percent payload.average largest
    max := Label.percent payload.max largest
    min := Label.percent payload.min largest
    total := largest
    current := some (ofWord sample.payloadSize) }

/-- Feeds all parts before it reads any, so that the shares belong to this sample too. -/
def computation (view : GroupKind) (sample : BlockSample) : Computation α (List (Update α)) := do
  let height : α := ofWord sample.height
  components.forM fun (metric, time) => do
    let _ ← feed view metric (ofWord (time sample))
  let pushAverage := wholeOf (← reach view .pushTime).average
  let parts ← components.mapM fun (metric, _) => do
    return component metric height pushAverage (← reach view metric)
  let payload ← feed view .payloadSize (ofWord sample.payloadSize)
  let reading := payloadReading sample payload
  return parts.flatten ++
    [.point Metric.payloadFullness.name height reading.value,
      .readout (.render Metric.payloadFullness.descriptor reading)]

end Timing

def timing {α : Type} [Scalar α] (view : GroupKind) : Group α :=
  ofComputation .timing fun sample _ => Timing.computation view sample

end NodeTelemetry.Group

namespace NodeTelemetry.Group

/-! ### Throughput -/

namespace Throughput

variable {α : Type} [Scalar α]

open Scalar (ofInt ofNat ofWord ofTime)
open NodeTelemetry.Computation (reach feed)

/-- A count over a span in milliseconds as a rate per second; none over no time. -/
def perSecond (span count : α) : α :=
  if Scalar.lt 0 span then count * ofInt 1000 / span else 0

def inWindow (arrivals : Accumulator α) : Nat := Nat.min arrivals.size arrivals.window

def span (arrivals : Accumulator α) : α :=
  arrivals.last - arrivals.get (arrivals.size - inWindow arrivals)

/-- The values that a sample adds to the four metrics of the group. -/
def rates (sample : BlockSample) (arrivals transactions systemTransactions : Accumulator α) :
    List (Metric × α) :=
  let rate := perSecond (span arrivals)
  [(.blocksPerSecond, rate (ofNat (inWindow arrivals))),
    (.allTransactionsPerSecond, rate transactions.windowSum),
    (.systemTransactionsPerSecond, rate systemTransactions.windowSum),
    (.atCountPerBlock, ofWord sample.atCount)]

/-- Feeds the three window histories first; none of them where one is missing. -/
def computation (view : GroupKind) (sample : BlockSample) (receivedAt : Int64) :
    Computation α (List (Update α)) := do
  let height : α := ofWord sample.height
  let _ ← reach (α := α) view .blockArrival
  let _ ← reach (α := α) view .windowTransactions
  let _ ← reach (α := α) view .windowSystemTransactions
  let arrivals ← feed view .blockArrival (ofTime receivedAt : α)
  let transactions ← feed view .windowTransactions (ofWord sample.allTransactionCount)
  let systemTransactions ← feed view .windowSystemTransactions (ofWord sample.systemTransactionCount)
  let updates ← (rates sample arrivals transactions systemTransactions).mapM fun (metric, rate) => do
    return averaged metric height (← feed view metric rate)
  return updates.flatten

end Throughput

/-- The throughput group over the accumulators that a view shows. -/
def throughput {α : Type} [Scalar α] (view : GroupKind) : Group α :=
  ofComputation .throughput (Throughput.computation view)

end NodeTelemetry.Group

namespace NodeTelemetry.Group

/-! ### Transactions -/

namespace Transactions

variable {α : Type} [Scalar α]

open Scalar (ofWord)
open NodeTelemetry.Computation (feed)

def counts : List (Metric × (BlockSample → UInt64)) :=
  [(.allTransactionsPerBlock, (·.allTransactionCount)),
    (.systemTransactionsPerBlock, (·.systemTransactionCount))]

def computation (view : GroupKind) (sample : BlockSample) : Computation α (List (Update α)) := do
  let height : α := ofWord sample.height
  let updates ← counts.mapM fun (metric, count) => do
    return averaged metric height (← feed view metric (ofWord (count sample)))
  return updates.flatten

end Transactions

/-- The transactions group over the accumulators that a view shows. -/
def transactions {α : Type} [Scalar α] (view : GroupKind) : Group α :=
  ofComputation .transactions fun sample _ => Transactions.computation view sample

end NodeTelemetry.Group

namespace NodeTelemetry.Group

/-! ### The block groups -/

variable {α : Type} [Scalar α]

/-- The block group of a kind over the accumulators that a view shows; traffic and queue figures do
not come from block samples. -/
def ofKind? (kind view : GroupKind) : Option (Group α) :=
  match kind with
  | .timing => some (timing view)
  | .throughput => some (throughput view)
  | .transactions => some (transactions view)
  | .network | .queue => none

/-- The three block groups in display order, each over its own accumulators. -/
def blockGroups : List (Group α) :=
  [timing .timing, throughput .throughput, transactions .transactions]

end NodeTelemetry.Group
