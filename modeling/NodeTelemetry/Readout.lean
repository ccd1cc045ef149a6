import NodeTelemetry.Label
import NodeTelemetry.Metric
import NodeTelemetry.Sample

/-!
Readouts: the value, the end of the scale and the label that a display shows for one metric. A
`Reading` holds the numbers that a readout is made of, and the metric's formatter turns it into one. A
batch of updates is what one event asks of the dashboard, and is applied as a whole.
-/

set_option autoImplicit false

namespace NodeTelemetry

structure Reading (α : Type) where
  value : α
  max : α
  min : α
  total : α
  /-- The latest value itself, where it is known beside its average. -/
  current : Option α

namespace Reading

variable {α : Type} [Scalar α]

def of (value max : α) : Reading α := ⟨value, max, 0, 0, none⟩

def partOf (current total : α) : Reading α := ⟨0, 0, 0, total, some current⟩

def currentOrZero (reading : Reading α) : α := reading.current.getD 0

end Reading

namespace Formatter

variable {α : Type} [Scalar α]

open Scalar (ofInt)

def gauge (formatter : Formatter) (reading : Reading α) : α × α :=
  match formatter with
  | .millis => (ofInt (Label.whole reading.value), ofInt (Label.whole reading.max))
  | .millisShare => (ofInt (Label.share reading.value reading.total), ofInt 100)
  | .fullness => (reading.value, ofInt 100)
  | .cacheFullness | .fraction =>
    (ofInt (Label.percentFloor reading.currentOrZero reading.total), ofInt 100)
  | .ratio | .byteRate | .bytes | .count => (reading.value, reading.max)

def label (formatter : Formatter) (reading : Reading α) : String :=
  match formatter with
  | .millis => Label.millis reading.value reading.max
  | .millisShare =>
    Label.millisShare reading.value reading.max (Label.share reading.value reading.total)
  | .ratio => Label.ratio reading.value reading.max
  | .byteRate => Label.dataRate reading.value
  | .bytes => Label.dataSize reading.value
  | .fullness =>
    match reading.current with
    | some current =>
      Label.fullness
        { averagePercent := reading.value
          currentPercent := Label.share current reading.total
          payloadSize := Scalar.count current
          maxPayloadSize := Scalar.count reading.total
          minPercent := Label.whole reading.min
          maxPercent := Label.whole reading.max }
    | none => Label.fullnessSummary reading.value reading.min reading.max
  | .cacheFullness =>
    let current := reading.currentOrZero
    Label.cacheFullness α (Scalar.count current) (Scalar.count reading.total)
      (Label.percentFloor current reading.total)
  | .fraction =>
    let current := reading.currentOrZero
    Label.fraction (Scalar.count current) (Scalar.count reading.total)
      (Label.percentFloor current reading.total)
  | .count => toString (Label.whole reading.value)

end Formatter

structure Readout (α : Type) where
  name : String
  value : α
  max : α
  label : String

/-- The readout of a metric by its formatter; without one it shows the bare numbers. -/
def Readout.render {α : Type} [Scalar α] (descriptor : Descriptor) (reading : Reading α) : Readout α :=
  match descriptor.formatter with
  | some formatter =>
    let (value, max) := formatter.gauge reading
    ⟨descriptor.name, value, max, formatter.label reading⟩
  | none => ⟨descriptor.name, reading.value, reading.max, ""⟩

inductive Update (α : Type) where
  | point (series : String) (x y : α)
  | readout (readout : Readout α)

end NodeTelemetry

namespace NodeTelemetry

/-! ### Batches -/

inductive BatchKind where
  /-- A sample of the block at a height. -/
  | block (height : UInt64)
  /-- A measurement of network traffic at a time in milliseconds. -/
  | network (timestamp : Int64)
  | queueStatus
  deriving Repr, DecidableEq

structure Batch (α : Type) where
  kind : BatchKind
  updates : List (Update α)

def Scalar.ofWord {α : Type} [Scalar α] (n : UInt64) : α := ofNat n.toNat

def Scalar.ofTime {α : Type} [Scalar α] (t : Int64) : α := ofInt t.toInt

namespace Batch

variable {α : Type} [Scalar α]

open Scalar (ofWord)

def ofQueueStatus (status : QueueStatus) : Batch α where
  kind := .queueStatus
  updates :=
    [.readout (.render Metric.queueVerified.descriptor
        (.partOf (ofWord status.verified) (ofWord status.total))),
      .readout (.render Metric.queueUnverified.descriptor
        (.of (ofWord status.unverified) (ofWord status.total))),
      .readout (.render Metric.cacheFullness.descriptor
        (.partOf (ofWord status.cacheUsed) (ofWord status.cacheCapacity)))]

end Batch

end NodeTelemetry
