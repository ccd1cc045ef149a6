import NodeTelemetry.Readout
import NodeTelemetry.Series

/-!
The dashboard: the charts and readouts that a display shows. Batches are applied as a whole, and a
rollback cuts the charts along heights back and reads their metrics off what is left.
-/

set_option autoImplicit false

namespace NodeTelemetry

structure Dashboard (α : Type) where
  series : SeriesStore α
  readouts : NameMap (Readout α)
  /-- The height of the latest block, lowered by rollbacks. -/
  lastHeight : Option UInt64
  commits : Nat

/-- What a rollback has done: the points it took away, and the readouts it gave anew. -/
structure Truncation (α : Type) where
  removed : Nat
  readouts : List (Readout α)

namespace Dashboard

variable {α : Type} [Scalar α]

def empty (series : SeriesStore α) : Dashboard α := ⟨series, ∅, none, 0⟩

def overlay (readouts : List (Readout α)) (shown : NameMap (Readout α)) : NameMap (Readout α) :=
  readouts.foldl (fun shown readout => shown.insert readout.name readout) shown

def update (dashboard : Dashboard α) : Update α → Dashboard α
  | .point series x y => { dashboard with series := dashboard.series.insert series x y }
  | .readout readout =>
    { dashboard with readouts := dashboard.readouts.insert readout.name readout }

def heightAfter (kind : BatchKind) (lastHeight : Option UInt64) : Option UInt64 :=
  match kind with
  | .block height => some height
  | .network _ | .queueStatus => lastHeight

def apply (dashboard : Dashboard α) (batch : Batch α) : Dashboard α :=
  let updated := batch.updates.foldl update dashboard
  { updated with
    lastHeight := heightAfter batch.kind updated.lastHeight
    commits := updated.commits + 1 }

/-- Cuts all charts along heights back to a height. The readouts of their metrics are given anew if a
point was taken away. -/
def truncate (dashboard : Dashboard α) (height : UInt64) : Dashboard α × Truncation α :=
  let bound : α := Scalar.ofWord height
  let removed := dashboard.series.beyond .height bound
  let series := dashboard.series.truncate .height bound
  let lastHeight := dashboard.lastHeight.map fun last => if height < last then height else last
  let readouts := if removed = 0 then [] else series.readouts
  ({ dashboard with series, lastHeight, readouts := overlay readouts dashboard.readouts },
    ⟨removed, readouts⟩)

end Dashboard

end NodeTelemetry
