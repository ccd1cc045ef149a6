import NodeTelemetry.Readout
import NodeTelemetry.Computation

/-!
Transfer rates. A meter compares each reading of the byte counters with the one before it and turns the
difference into bytes per second.
-/

set_option autoImplicit false

namespace NodeTelemetry

structure TransferRate (α : Type) where
  upload : α
  download : α

namespace TransferRate

variable {α : Type} [Scalar α]

open Scalar (ofInt ofNat ofTime)

/-- The rate of one counter over a span in milliseconds. A counter that went back counts as no
traffic. -/
def ofCounter (before now : UInt64) (elapsed : Int64) : α :=
  ofNat (now.toNat - before.toNat) * ofInt 1000 / ofTime elapsed

/-- The rate between two readings; none unless the second is strictly later. -/
def between? (before now : VolumeSnapshot) : Option (TransferRate α) :=
  let elapsed := now.observedAt - before.observedAt
  if 0 < elapsed then
    some
      { upload := ofCounter before.counters.uploaded now.counters.uploaded elapsed
        download := ofCounter before.counters.downloaded now.counters.downloaded elapsed }
  else none

end TransferRate

structure RateSample (α : Type) where
  rate : TransferRate α
  batch : Batch α

/-- A meter: the view through which it reaches the speed accumulators, and the latest reading. -/
structure RateMeter where
  view : GroupKind
  latest : Option VolumeSnapshot
  deriving Repr, DecidableEq

namespace RateMeter

variable {α : Type} [Scalar α]

open Scalar (ofWord ofTime)
open NodeTelemetry.Computation (reach feed)

/-- A meter without a reading, if the view shows both speed accumulators. -/
def ofView (set : AccumulatorSet α) (view : GroupKind) : Except EngineError RateMeter := do
  let _ ← set.lookup view Metric.uploadSpeed.name
  let _ ← set.lookup view Metric.downloadSpeed.name
  return ⟨view, none⟩

/-- The points of a measurement: none before any byte was counted. -/
def points (now : VolumeSnapshot) (upload download : Accumulator α) : List (Update α) :=
  let counters := now.counters
  let time : α := ofTime now.observedAt
  if 0 < counters.uploaded ∨ 0 < counters.downloaded then
    [.point Metric.uploadSpeed.name time upload.average,
      .point Metric.downloadSpeed.name time download.average,
      .point Metric.uploadVolume.name time (ofWord counters.uploaded),
      .point Metric.downloadVolume.name time (ofWord counters.downloaded)]
  else []

def readouts (now : VolumeSnapshot) (upload download : Accumulator α) : List (Update α) :=
  let volume (bytes : UInt64) : Reading α := .of (ofWord bytes) (ofWord bytes)
  [.readout (.render Metric.uploadSpeed.descriptor (.of upload.average upload.max)),
    .readout (.render Metric.downloadSpeed.descriptor (.of download.average download.max)),
    .readout (.render Metric.uploadVolume.descriptor (volume now.counters.uploaded)),
    .readout (.render Metric.downloadVolume.descriptor (volume now.counters.downloaded))]

def record (view : GroupKind) (now : VolumeSnapshot) (rate : TransferRate α) :
    Computation α (RateSample α) := do
  let upload ← feed view .uploadSpeed rate.upload
  let download ← feed view .downloadSpeed rate.download
  return ⟨rate, .network now.observedAt, points now upload download ++ readouts now upload download⟩

/-- Takes a reading. It becomes the one to compare the next with, whether or not it yields a rate. -/
def tick (meter : RateMeter) (now : VolumeSnapshot) :
    RateMeter × Computation α (Option (RateSample α)) :=
  ({ meter with latest := some now },
    match meter.latest.bind fun before => TransferRate.between? before now with
    | some rate => some <$> record meter.view now rate
    | none => pure none)

end RateMeter

end NodeTelemetry
