import NodeTelemetry.Proofs.Engine.Run

/-!
Single moves of an engine. `Becomes` lists what a move can make of an engine and when; what all moves
keep is shown by going through that list once.
-/

set_option autoImplicit false

namespace NodeTelemetry.Engine

variable {α : Type} [Scalar α]

def taken (engine : Engine α) : Move → List (CommitJob α)
  | .step .commit => if engine.phase = .running then engine.commits.take 1 else []
  | _ => []

/-- What a move can make of an engine. The steps of tasks take a running engine. -/
inductive Becomes (engine : Engine α) : Move → Engine α → Prop where
  /-- What is refused, or finds nothing to do, changes nothing. -/
  | idle {move : Move} (harriving : engine.arriving move = []) (htaken : engine.taken move = []) :
      Becomes engine move engine
  | submit (event : IngestEvent) (hopen : engine.intakeOpen = true) :
      Becomes engine (.submit event) { engine with intake := engine.intake ++ [event] }
  | ask (hopen : engine.intakeOpen = true) :
      Becomes engine .ask
        { engine with
          intake := engine.intake ++ [.flush engine.tickets]
          tickets := engine.tickets + 1 }
  | setWindow {window : Nat} {set : AccumulatorSet α}
      (hset : engine.accumulators.setWindow window = .ok set) :
      Becomes engine (.setWindow window)
        { engine with
          ingestion := { engine.ingestion with accumulators := set }
          windowFigure := window }
  | setVolume (counters : VolumeCounters) :
      Becomes engine (.setVolume counters) { engine with volume := counters }
  | start (hwaiting : engine.phase = .waiting) :
      Becomes engine .start { engine with phase := .running, measuring := true }
  | close : Becomes engine .close { engine with intakeOpen := false }
  | finish : Becomes engine .finish { engine with phase := .finished }
  | post {job : CommitJob α} (hrunning : engine.phase = .running)
      (hposting : engine.posting = some job) :
      Becomes engine (.step .ingestion)
        { engine with commits := engine.commits ++ [job], posting := none }
  | take {event : IngestEvent} {later : List IngestEvent} (hrunning : engine.phase = .running)
      (hposting : engine.posting = none) (hintake : engine.intake = event :: later) :
      Becomes engine (.step .ingestion)
        { engine with
          intake := later
          ingestion := (engine.ingestion.handle engine.groups engine.route event).1
          posting := (engine.ingestion.handle engine.groups engine.route event).2.job? }
  /-- A measurement without a rate. -/
  | observe {now : Int64} {outcome : Except EngineError (Option (RateSample α))}
      {set : AccumulatorSet α} (hrunning : engine.phase = .running)
      (hmeasuring : engine.measuring = true) (hmeasured : engine.measured = none)
      (hrun : (engine.meter.tick ⟨engine.volume, now⟩).2.run engine.accumulators = (outcome, set))
      (hnone : ∀ sample, outcome ≠ .ok (some sample)) :
      Becomes engine (.step (.measurement now))
        { engine with
          meter := (engine.meter.tick (α := α) ⟨engine.volume, now⟩).1
          ingestion := { engine.ingestion with accumulators := set } }
  | measure {now : Int64} {sample : RateSample α} {set : AccumulatorSet α}
      (hrunning : engine.phase = .running) (hmeasuring : engine.measuring = true)
      (hmeasured : engine.measured = none)
      (hrun : (engine.meter.tick ⟨engine.volume, now⟩).2.run engine.accumulators =
        (.ok (some sample), set)) :
      Becomes engine (.step (.measurement now))
        { engine with
          meter := (engine.meter.tick (α := α) ⟨engine.volume, now⟩).1
          ingestion := { engine.ingestion with accumulators := set }
          measured := some (.apply sample.batch)
          rateTicks := engine.rateTicks + 1 }
  | report {job : CommitJob α} (hrunning : engine.phase = .running)
      (hmeasured : engine.measured = some job) :
      Becomes engine (.step .report)
        { engine with commits := engine.commits ++ [job], measured := none }
  | rest (hrunning : engine.phase = .running) (hclosed : engine.intakeOpen = false)
      (hmeasured : engine.measured = none) :
      Becomes engine (.step .rest) { engine with measuring := false }
  | commit {job : CommitJob α} {later : List (CommitJob α)} (hrunning : engine.phase = .running)
      (hcommits : engine.commits = job :: later) :
      Becomes engine (.step .commit)
        { engine with commits := later, consumer := engine.consumer.step job }

private theorem becomes_stepIngestion {engine : Engine α} (hrunning : engine.phase = .running) :
    engine.Becomes (.step .ingestion) engine.stepIngestion := by
  cases hposting : engine.posting with
  | some job =>
    rw [stepIngestion, hposting]
    exact .post hrunning hposting
  | none =>
    cases hintake : engine.intake with
    | nil =>
      rw [stepIngestion, hposting, hintake]
      exact .idle rfl rfl
    | cons event later =>
      rw [stepIngestion, hposting, hintake]
      exact .take hrunning hposting hintake

theorem becomes_stepMeasurement {engine : Engine α} (hrunning : engine.phase = .running)
    (now : Int64) : engine.Becomes (.step (.measurement now)) (engine.stepMeasurement now) := by
  unfold stepMeasurement
  split
  next hready =>
    obtain ⟨hmeasuring, hmeasured⟩ := Bool.and_eq_true_iff.1 hready
    rw [Option.isNone_iff_eq_none] at hmeasured
    simp only
    split
    next sample set hrun => exact .measure hrunning hmeasuring hmeasured hrun
    next outcome set hother hrun =>
      refine .observe hrunning hmeasuring hmeasured hrun fun sample heq => ?_
      exact hother sample heq
  · exact .idle rfl rfl

theorem becomes_step (engine : Engine α) (task : Task) :
    engine.Becomes (.step task) (engine.step task) := by
  unfold step
  by_cases hrunning : engine.phase = .running
  · rw [if_pos hrunning]
    cases task with
    | ingestion => exact becomes_stepIngestion hrunning
    | measurement now => exact becomes_stepMeasurement hrunning now
    | report =>
      simp only [stepReport]
      split
      next job hmeasured => exact .report hrunning hmeasured
      · exact .idle rfl rfl
    | rest =>
      simp only [stepRest]
      split
      · exact .idle rfl rfl
      next hready =>
        rw [Bool.or_eq_true, not_or, Bool.not_eq_true, Bool.not_eq_true,
          Option.isSome_eq_false_iff, Option.isNone_iff_eq_none] at hready
        exact .rest hrunning hready.1 hready.2
    | commit =>
      simp only [stepCommit]
      split
      next hcommits =>
        refine .idle rfl ?_
        simp only [taken, hcommits, List.take_nil, ite_self]
      next job later hcommits => exact .commit hrunning hcommits
  · rw [if_neg hrunning]
    refine .idle rfl ?_
    -- the consumer takes nothing either, though jobs may wait
    cases task with
    | commit => exact if_neg hrunning
    | _ => rfl

theorem becomes_make (engine : Engine α) (move : Move) : engine.Becomes move (engine.make move) := by
  cases move with
  | submit event =>
    simp only [make, submit]
    split
    next hopen => exact .submit event hopen
    next hclosed => exact .idle (if_neg hclosed) rfl
  | ask =>
    simp only [make, submit]
    split
    next hopen => exact .ask hopen
    next hclosed => exact .idle (if_neg hclosed) rfl
  | setWindow window =>
    simp only [make, setWindow]
    cases hset : engine.accumulators.setWindow window with
    | ok set => exact .setWindow hset
    | error error => exact .idle rfl rfl
  | setVolume counters => exact .setVolume counters
  | start =>
    unfold make start
    by_cases hwaiting : engine.phase = .waiting
    · rw [if_pos hwaiting]
      exact .start hwaiting
    · rw [if_neg hwaiting]
      exact .idle rfl rfl
  | step task => exact engine.becomes_step task
  | close => exact .close
  | finish => exact .finish

end NodeTelemetry.Engine
