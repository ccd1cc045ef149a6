import NodeTelemetry.Commit
import NodeTelemetry.Group

/-!
Ingestion: what becomes of the events that a node reports. A sample goes to all groups and their updates
form one batch; a queue status forms a batch of its own; a popped block asks for a rollback. Groups may
finish in any order, and one that fails only leaves its own updates out.
-/

set_option autoImplicit false

namespace NodeTelemetry

/-- An event that a node reports, or a request to wait for those before it. -/
inductive IngestEvent where
  /-- A block sample and its time of arrival, or a cycle that yielded none. -/
  | sample (sample : Option (BlockSample × Int64))
  | queueStatus (status : QueueStatus)
  | blockPopped (height : UInt64)
  | flush (ticket : Nat)
  deriving Repr, DecidableEq

structure IngestFigures where
  samplesReceived : Nat := 0
  samplesMissing : Nat := 0
  queueUpdates : Nat := 0
  rollbacks : Nat := 0
  /-- How many times the work of each kind of group was measured. -/
  groupRuns : NameMap Nat := ∅

def NameMap.increment (counts : NameMap Nat) (name : String) : NameMap Nat :=
  counts.insert name ((counts.get? name).getD 0 + 1)

inductive ErrorRoute where
  | counted
  | recorded
  deriving Repr, DecidableEq

structure ErrorLog where
  counts : NameMap Nat := ∅
  recorded : List EngineError := []

namespace ErrorLog

def label : EngineError → String
  | .computation group _ => group.name
  | .size _ => "engine"

def note (route : ErrorRoute) (log : ErrorLog) (error : EngineError) : ErrorLog :=
  match route with
  | .counted => { log with counts := log.counts.increment (label error) }
  | .recorded => { log with recorded := log.recorded ++ [error] }

end ErrorLog

/-- The end of one group's work: the position of the group, and its updates or error. -/
structure Completion (α : Type) where
  index : Nat
  outcome : Except EngineError (List (Update α))

namespace Completion

variable {α : Type}

def place (slots : List (Option (List (Update α)))) (completion : Completion α) :
    List (Option (List (Update α))) :=
  match completion.outcome with
  | .ok updates => slots.set completion.index (some updates)
  | .error _ => slots

/-- The updates of all groups in the order of the groups, whatever order they finished in. -/
def collect (groups : Nat) (completions : List (Completion α)) : List (Update α) :=
  ((completions.foldl place (List.replicate groups none)).filterMap id).flatten

def error? (completion : Completion α) : Option EngineError :=
  match completion.outcome with
  | .ok _ => none
  | .error error => some error

end Completion

/-- The batch of a block's sample, from the ends of the groups' work in any order. -/
def Batch.ofCompletions {α : Type} (height : UInt64) (groups : Nat)
    (completions : List (Completion α)) : Batch α :=
  ⟨.block height, Completion.collect groups completions⟩

namespace Group

variable {α : Type}

/-- Runs groups one after another, numbered from the given position on. -/
def runAll (sample : BlockSample) (receivedAt : Int64) :
    Nat → List (Group α) → AccumulatorSet α → List (Completion α) × AccumulatorSet α
  | _, [], set => ([], set)
  | index, group :: groups, set =>
    let (outcome, after) := group.compute sample receivedAt set
    let (completions, last) := runAll sample receivedAt (index + 1) groups after
    (⟨index, settled group.kind outcome⟩ :: completions, last)

end Group

inductive Posting (α : Type) where
  | nothing
  /-- A job of ingestion's own, without which it cannot go on. -/
  | job (own : CommitJob α)
  /-- A rollback, which may be refused without consequence. -/
  | rollback (height : UInt64)

namespace Posting

variable {α : Type}

def job? : Posting α → Option (CommitJob α)
  | nothing => none
  | job own => some own
  | rollback height => some (.truncate height)

/-- Posts the job, if there is one. The flag tells whether ingestion goes on. -/
def deliver (queue : CommitQueue α) : Posting α → CommitQueue α × Bool
  | nothing => (queue, true)
  | job own => queue.post own
  | rollback height => ((queue.post (.truncate height)).1, true)

end Posting

structure Ingestion (α : Type) where
  accumulators : AccumulatorSet α
  figures : IngestFigures
  errors : ErrorLog

namespace Ingestion

variable {α : Type} [Scalar α]

def fresh (accumulators : AccumulatorSet α) : Ingestion α := ⟨accumulators, {}, {}⟩

/-- Works on a sample: runs all groups, notes the errors and makes the batch. -/
def process (groups : List (Group α)) (route : ErrorRoute) (ingestion : Ingestion α)
    (sample : BlockSample) (receivedAt : Int64) : Ingestion α × Batch α :=
  let (completions, accumulators) := Group.runAll sample receivedAt 0 groups ingestion.accumulators
  let groupRuns := groups.foldl (fun runs group => runs.increment group.kind.name)
    ingestion.figures.groupRuns
  let errors := (completions.filterMap Completion.error?).foldl (ErrorLog.note route) ingestion.errors
  ({ accumulators, figures := { ingestion.figures with groupRuns }, errors },
    Batch.ofCompletions sample.height groups.length completions)

def requestRollback (figures : IngestFigures) (height : UInt64) : IngestFigures × Posting α :=
  ({ figures with rollbacks := figures.rollbacks + 1 }, .rollback height)

def handle (groups : List (Group α)) (route : ErrorRoute) (ingestion : Ingestion α)
    (event : IngestEvent) : Ingestion α × Posting α :=
  let figures := ingestion.figures
  match event with
  | .sample (some (sample, receivedAt)) =>
    let counted := { figures with samplesReceived := figures.samplesReceived + 1 }
    let (next, batch) := process groups route { ingestion with figures := counted } sample receivedAt
    (next, .job (.apply batch))
  | .sample none =>
    ({ ingestion with figures := { figures with samplesMissing := figures.samplesMissing + 1 } },
      .nothing)
  | .queueStatus status =>
    ({ ingestion with figures := { figures with queueUpdates := figures.queueUpdates + 1 } },
      .job (.apply (.ofQueueStatus status)))
  | .blockPopped height =>
    let (counted, posting) := requestRollback figures height
    ({ ingestion with figures := counted }, posting)
  | .flush ticket => (ingestion, .job (.barrier ticket))

/-- Works on events in order, until one of ingestion's own jobs is refused. -/
def run (groups : List (Group α)) (route : ErrorRoute) :
    List IngestEvent → Ingestion α → CommitQueue α → Ingestion α × CommitQueue α
  | [], ingestion, queue => (ingestion, queue)
  | event :: events, ingestion, queue =>
    let (next, posting) := ingestion.handle groups route event
    let (posted, goesOn) := posting.deliver queue
    if goesOn then run groups route events next posted else (next, posted)

end Ingestion

end NodeTelemetry
