import NodeTelemetry.Config
import NodeTelemetry.Group
import NodeTelemetry.Health
import NodeTelemetry.TransferRate

/-!
The engine: accumulators, dashboard and queues together with the tasks that work on them. Events wait
in the intake until the ingestion task takes them; ingestion and measurement post jobs to the commit
queue, and the consumer does them. Each task advances by small steps, so any interleaving of the tasks
is a list of steps; `settle` is the one that works off everything that waits.
-/

set_option autoImplicit false

namespace NodeTelemetry

inductive Phase where
  | waiting
  | running
  | finished
  deriving Repr, DecidableEq

inductive Task where
  /-- Ingestion takes an event, or posts the job that came of the last one. -/
  | ingestion
  | measurement (now : Int64)
  | report
  | rest
  | commit
  deriving Repr, DecidableEq

structure Engine (α : Type) where
  config : EngineConfig
  groups : List (Group α)
  route : ErrorRoute
  phase : Phase
  intakeOpen : Bool
  /-- The events that wait, oldest first. -/
  intake : List IngestEvent
  ingestion : Ingestion α
  /-- The job that ingestion is about to post. -/
  posting : Option (CommitJob α)
  volume : VolumeCounters
  meter : RateMeter
  measuring : Bool
  measured : Option (CommitJob α)
  /-- How many measurements have yielded a rate. -/
  rateTicks : Nat
  /-- The jobs that wait for the consumer, oldest first. -/
  commits : List (CommitJob α)
  consumer : Consumer α
  windowFigure : Nat
  /-- How many flushes were accepted. -/
  tickets : Nat

inductive StartError where
  | startedBefore
  deriving Repr, DecidableEq

def StartError.message : StartError → String
  | .startedBefore => "engine start called more than once"

inductive FlushOutcome where
  | refused
  | done
  | pending
  deriving Repr, DecidableEq

structure DashboardSnapshot (α : Type) where
  lastHeight : Option UInt64
  window : Nat
  commits : Nat
  series : NameMap (List (Point α))
  accumulators : NameMap (AccumulatorSnapshot α)
  readouts : NameMap (Readout α)

def EngineConfig.histories (config : EngineConfig) : HistorySizes :=
  ⟨config.chartHistory, config.speedHistory⟩

namespace Engine

variable {α : Type} [Scalar α]

/-- An engine with the three block groups, if the sizes can be had. -/
def build (config : EngineConfig) : Except SizeError (Engine α) := do
  let accumulators ← AccumulatorSet.ofDescriptors catalogue config.histories config.window
  return {
    config
    groups := Group.blockGroups
    route := .counted
    phase := .waiting
    intakeOpen := true
    intake := []
    ingestion := .fresh accumulators
    posting := none
    volume := {}
    meter := ⟨.network, none⟩
    measuring := false
    measured := none
    rateTicks := 0
    commits := []
    consumer := .fresh (.ofDescriptors catalogue config.histories)
    windowFigure := config.window
    tickets := 0 }

def accumulators (engine : Engine α) : AccumulatorSet α := engine.ingestion.accumulators

def dashboard (engine : Engine α) : Dashboard α := engine.consumer.dashboard

def health (engine : Engine α) : Health :=
  { ingest := engine.ingestion.figures
    commit := engine.consumer.figures
    errors := engine.ingestion.errors
    rateTicks := engine.rateTicks
    window := engine.windowFigure }

def snapshot (engine : Engine α) : DashboardSnapshot α :=
  { lastHeight := engine.dashboard.lastHeight
    window := engine.accumulators.window
    commits := engine.dashboard.commits
    series := engine.dashboard.series.charts.map fun _ chart => chart.series.toList
    accumulators := engine.accumulators.snapshot
    readouts := engine.dashboard.readouts }

/-- Offers an event. The flag tells whether it was accepted. -/
def submit (engine : Engine α) (event : IngestEvent) : Engine α × Bool :=
  if engine.intakeOpen then ({ engine with intake := engine.intake ++ [event] }, true)
  else (engine, false)

def setVolume (engine : Engine α) (counters : VolumeCounters) : Engine α :=
  { engine with volume := counters }

def setWindow (engine : Engine α) (window : Nat) : Except SizeError (Engine α) := do
  let accumulators ← engine.accumulators.setWindow window
  return { engine with
    ingestion := { engine.ingestion with accumulators }
    windowFigure := window }

def stepIngestion (engine : Engine α) : Engine α :=
  match engine.posting with
  | some job => { engine with commits := engine.commits ++ [job], posting := none }
  | none =>
    match engine.intake with
    | [] => engine
    | event :: later =>
      let (ingestion, posting) := engine.ingestion.handle engine.groups engine.route event
      { engine with intake := later, ingestion, posting := posting.job? }

def stepMeasurement (engine : Engine α) (now : Int64) : Engine α :=
  if engine.measuring && engine.measured.isNone then
    let (meter, computation) := engine.meter.tick (α := α) ⟨engine.volume, now⟩
    match computation.run engine.accumulators with
    | (.ok (some sample), accumulators) =>
      { engine with
        meter
        ingestion := { engine.ingestion with accumulators }
        measured := some (.apply sample.batch)
        rateTicks := engine.rateTicks + 1 }
    | (_, accumulators) =>
      { engine with meter, ingestion := { engine.ingestion with accumulators } }
  else engine

def stepReport (engine : Engine α) : Engine α :=
  match engine.measured with
  | some job => { engine with commits := engine.commits ++ [job], measured := none }
  | none => engine

/-- Ends measuring, once events are no longer accepted and nothing is left to post. -/
def stepRest (engine : Engine α) : Engine α :=
  if engine.intakeOpen || engine.measured.isSome then engine else { engine with measuring := false }

def stepCommit (engine : Engine α) : Engine α :=
  match engine.commits with
  | [] => engine
  | job :: later => { engine with commits := later, consumer := engine.consumer.step job }

def step (engine : Engine α) (task : Task) : Engine α :=
  if engine.phase = .running then
    match task with
    | .ingestion => engine.stepIngestion
    | .measurement now => engine.stepMeasurement now
    | .report => engine.stepReport
    | .rest => engine.stepRest
    | .commit => engine.stepCommit
  else engine

def run (engine : Engine α) (schedule : List Task) : Engine α := schedule.foldl step engine

/-- Works off everything that waits, and lets measuring end if the engine is to stop. -/
def settle (engine : Engine α) : Engine α :=
  let ingested := engine.run (List.replicate (2 * engine.intake.length + 1) .ingestion)
  let reported := ingested.run [.report, .rest]
  reported.run (List.replicate reported.commits.length .commit)

def start (engine : Engine α) : Except StartError (Engine α) :=
  if engine.phase = .waiting then .ok { engine with phase := .running, measuring := true }
  else .error .startedBefore

/-- Accepts no more events and, if the tasks run, waits until they have worked everything off. -/
def stop (engine : Engine α) : Engine α :=
  let closed := { engine with intakeOpen := false }
  if closed.phase = .running then { closed.settle with phase := .finished } else closed

def flush (engine : Engine α) : Engine α × FlushOutcome :=
  match engine.submit (.flush engine.tickets) with
  | (_, false) => (engine, .refused)
  | (asked, true) =>
    let settled := { asked with tickets := engine.tickets + 1 }.settle
    (settled, if settled.consumer.confirmed.contains engine.tickets then .done else .pending)

end Engine

end NodeTelemetry
