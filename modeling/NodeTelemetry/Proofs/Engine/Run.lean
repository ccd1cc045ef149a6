import NodeTelemetry.Engine

/-!
Runs of an engine. A move is a request from outside or a step of one task, and a run is any list of
moves, so it stands for any interleaving. Settling, flushing and stopping are runs as well.
-/

set_option autoImplicit false

namespace NodeTelemetry

/-- What can happen to an engine. -/
inductive Move where
  | submit (event : IngestEvent)
  /-- A new ticket is put behind all events that wait. -/
  | ask
  | setWindow (window : Nat)
  | setVolume (counters : VolumeCounters)
  | start
  | step (task : Task)
  /-- Events are no longer accepted. -/
  | close
  /-- The tasks are at their end. -/
  | finish
  deriving Repr, DecidableEq

namespace Engine

variable {α : Type} [Scalar α]

def arriving (engine : Engine α) : Move → List IngestEvent
  | .submit event => if engine.intakeOpen then [event] else []
  | .ask => if engine.intakeOpen then [.flush engine.tickets] else []
  | .setWindow _ | .setVolume _ | .start | .step _ | .close | .finish => []

def make (engine : Engine α) (move : Move) : Engine α :=
  match move with
  | .submit event => (engine.submit event).1
  | .ask =>
    if engine.intakeOpen then
      { (engine.submit (.flush engine.tickets)).1 with tickets := engine.tickets + 1 }
    else engine
  | .setWindow window =>
    match engine.setWindow window with
    | .ok resized => resized
    | .error _ => engine
  | .setVolume counters => engine.setVolume counters
  | .start =>
    match engine.start with
    | .ok started => started
    | .error _ => engine
  | .step task => engine.step task
  | .close => { engine with intakeOpen := false }
  | .finish => { engine with phase := .finished }

def after (engine : Engine α) (moves : List Move) : Engine α := moves.foldl make engine

def accepted (engine : Engine α) : List Move → List IngestEvent
  | [] => []
  | move :: moves => engine.arriving move ++ accepted (engine.make move) moves

theorem after_append (engine : Engine α) (first later : List Move) :
    engine.after (first ++ later) = (engine.after first).after later :=
  List.foldl_append

theorem after_singleton (engine : Engine α) (move : Move) :
    engine.after [move] = engine.make move :=
  rfl

theorem accepted_append (engine : Engine α) (first later : List Move) :
    engine.accepted (first ++ later) =
      engine.accepted first ++ (engine.after first).accepted later := by
  induction first generalizing engine with
  | nil => rfl
  | cons move first ih =>
    have hrest := ih (engine.make move)
    rw [List.cons_append, accepted, hrest, accepted, List.append_assoc]
    rfl

theorem accepted_singleton (engine : Engine α) (move : Move) :
    engine.accepted [move] = engine.arriving move :=
  List.append_nil _

/-! ### Requests that take many steps -/

theorem run_eq_after (engine : Engine α) (schedule : List Task) :
    engine.run schedule = engine.after (schedule.map Move.step) := by
  rw [after, List.foldl_map]
  rfl

theorem exists_settle_eq_after (engine : Engine α) :
    ∃ schedule : List Task, engine.settle = engine.after (schedule.map Move.step) := by
  let ingesting : List Task := List.replicate (2 * engine.intake.length + 1) .ingestion
  let reported := (engine.run ingesting).run [.report, .rest]
  let committing : List Task := List.replicate reported.commits.length .commit
  refine ⟨ingesting ++ ([.report, .rest] ++ committing), ?_⟩
  rw [← run_eq_after, run, List.foldl_append, List.foldl_append]
  rfl

end Engine

end NodeTelemetry
