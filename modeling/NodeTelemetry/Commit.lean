import NodeTelemetry.Dashboard

/-!
Commits. Whoever wants the dashboard changed posts a job to one queue; a single consumer takes the jobs
in order, changes the dashboard, tells the display and counts.
-/

set_option autoImplicit false

namespace NodeTelemetry

inductive CommitJob (α : Type) where
  | apply (batch : Batch α)
  | truncate (height : UInt64)
  /-- Confirm that all jobs posted before are done. -/
  | barrier (ticket : Nat)

inductive Notice (α : Type) where
  | applied (batch : Batch α)
  | truncated (height : UInt64) (readouts : List (Readout α))

/-- Jobs that wait to be taken, oldest first, and whether anyone will take them. -/
structure CommitQueue (α : Type) where
  jobs : List (CommitJob α)
  isOpen : Bool

namespace CommitQueue

variable {α : Type}

def serving : CommitQueue α := ⟨[], true⟩

def closed : CommitQueue α := ⟨[], false⟩

/-- Posts a job. The flag tells whether the queue has taken it. -/
def post (queue : CommitQueue α) (job : CommitJob α) : CommitQueue α × Bool :=
  if queue.isOpen then ({ queue with jobs := queue.jobs ++ [job] }, true) else (queue, false)

end CommitQueue

structure CommitFigures where
  applied : Nat := 0
  /-- How many times applying a batch was measured. -/
  durations : Nat := 0
  pointsTruncated : Nat := 0
  /-- The height of the latest block on display; zero before the first. -/
  currentHeight : UInt64 := 0
  deriving Repr, DecidableEq

structure Consumer (α : Type) where
  dashboard : Dashboard α
  figures : CommitFigures
  /-- What the display was told, oldest first. -/
  shown : List (Notice α)
  confirmed : List Nat

namespace Consumer

variable {α : Type} [Scalar α]

def fresh (series : SeriesStore α) : Consumer α := ⟨.empty series, {}, [], []⟩

def heightFigure (kind : BatchKind) (current : UInt64) : UInt64 :=
  match kind with
  | .block height => height
  | .network _ | .queueStatus => current

def step (consumer : Consumer α) : CommitJob α → Consumer α
  | .apply batch =>
    { consumer with
      dashboard := consumer.dashboard.apply batch
      shown := consumer.shown ++ [.applied batch]
      figures :=
        { consumer.figures with
          applied := consumer.figures.applied + 1
          durations := consumer.figures.durations + 1
          currentHeight := heightFigure batch.kind consumer.figures.currentHeight } }
  | .truncate height =>
    let (dashboard, truncation) := consumer.dashboard.truncate height
    { consumer with
      dashboard
      shown := consumer.shown ++ [.truncated height truncation.readouts]
      figures :=
        { consumer.figures with
          pointsTruncated := consumer.figures.pointsTruncated + truncation.removed
          currentHeight := dashboard.lastHeight.getD consumer.figures.currentHeight } }
  | .barrier ticket => { consumer with confirmed := consumer.confirmed ++ [ticket] }

def run (consumer : Consumer α) (jobs : List (CommitJob α)) : Consumer α := jobs.foldl step consumer

end Consumer

end NodeTelemetry
