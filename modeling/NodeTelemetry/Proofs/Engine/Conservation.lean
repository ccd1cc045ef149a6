import NodeTelemetry.Proofs.Engine.Settling

/-!
Figures of three tasks that agree. Ingestion counts what it takes, measuring counts what it measures and
the consumer counts what it has applied, each at its own time. At any moment the difference is what is
between them; once the tasks have ended there is none, whether or not groups have failed.
-/

set_option autoImplicit false

namespace NodeTelemetry

variable {α : Type} [Scalar α]

/-! ### Counting duties -/

namespace Duty

omit [Scalar α]

def ofBatch : Duty α → Bool
  | .block _ | .queueStatus _ => true
  | .truncate _ | .barrier _ => false

def truncation? : Duty α → Option UInt64
  | .truncate height => some height
  | .block _ | .queueStatus _ | .barrier _ => none

end Duty

omit [Scalar α] in
def CommitJob.truncation? : CommitJob α → Option UInt64
  | .truncate height => some height
  | .apply _ | .barrier _ => none

omit [Scalar α] in
def Notice.truncation? : Notice α → Option UInt64
  | .truncated height _ => some height
  | .applied _ => none

private theorem IngestFigures.Counts.batches {figures : IngestFigures} {events : List IngestEvent}
    (h : figures.Counts events) :
    (events.filterMap (IngestEvent.duty? (α := α))).countP Duty.ofBatch =
      figures.samplesReceived + figures.queueUpdates := by
  rw [h.samplesReceived, h.queueUpdates]
  clear h
  induction events with
  | nil => rfl
  | cons event events ih =>
    match event with
    | .sample none | .blockPopped _ | .flush _ =>
      simpa [List.filterMap_cons, IngestEvent.duty?, IngestEvent.sample?, Duty.ofBatch] using ih
    | .sample (some _) | .queueStatus _ =>
      simp [List.filterMap_cons, List.countP_cons, IngestEvent.duty?, IngestEvent.sample?,
        Duty.ofBatch, ih]
      omega

private theorem IngestFigures.Counts.truncations {figures : IngestFigures}
    {events : List IngestEvent} (h : figures.Counts events) :
    ((events.filterMap (IngestEvent.duty? (α := α))).filterMap Duty.truncation?).length =
      figures.rollbacks := by
  rw [h.rollbacks]
  clear h
  induction events with
  | nil => rfl
  | cons event events ih =>
    match event with
    | .sample none | .sample (some _) | .queueStatus _ | .flush _ =>
      simpa [List.filterMap_cons, IngestEvent.duty?, Duty.truncation?] using ih
    | .blockPopped _ => simp [IngestEvent.duty?, Duty.truncation?, ih]

omit [Scalar α] in
private theorem length_batches (jobs : List (CommitJob α)) :
    (jobs.filterMap CommitJob.batch?).length =
      (jobs.filterMap CommitJob.duty?).countP Duty.ofBatch +
        (jobs.filter CommitJob.measures).length := by
  induction jobs with
  | nil => rfl
  | cons job jobs ih =>
    match job with
    | .truncate _ | .barrier _ =>
      simpa [List.filterMap_cons, CommitJob.batch?, CommitJob.duty?, CommitJob.measures,
        Duty.ofBatch] using ih
    | .apply ⟨.block _, _⟩ | .apply ⟨.queueStatus, _⟩ | .apply ⟨.network _, _⟩ =>
      simp [List.filterMap_cons, List.countP_cons, List.filter_cons, CommitJob.batch?,
        CommitJob.duty?, Batch.duty?, CommitJob.measures, Duty.ofBatch, ih]
      omega

omit [Scalar α] in
private theorem filterMap_truncation?_duty? (jobs : List (CommitJob α)) :
    (jobs.filterMap CommitJob.duty?).filterMap Duty.truncation? =
      jobs.filterMap CommitJob.truncation? := by
  rw [List.filterMap_filterMap]
  refine List.filterMap_congr fun job _ => ?_
  match job with
  | .truncate _ | .barrier _ => rfl
  | .apply ⟨.block _, _⟩ | .apply ⟨.queueStatus, _⟩ | .apply ⟨.network _, _⟩ => rfl

private theorem Consumer.Balanced.truncations {store : SeriesStore α} {jobs : List (CommitJob α)}
    {consumer : Consumer α} (h : consumer.Balanced store jobs) :
    consumer.shown.filterMap Notice.truncation? = jobs.filterMap CommitJob.truncation? := by
  have htold : consumer.shown.filterMap Notice.truncation? =
      (consumer.shown.map Notice.job).filterMap CommitJob.truncation? := by
    rw [List.filterMap_map]
    refine List.filterMap_congr fun notice _ => ?_
    cases notice <;> rfl
  rw [htold, h.shown, List.filterMap_filter]
  refine List.filterMap_congr fun job _ => ?_
  cases job <;> rfl

namespace Session

/-- How many batches were counted by their makers and are not counted by the consumer: those that groups
work on, that are about to be posted, that wait, or that the consumer has in hand. -/
def batchesUnderway (session : Session α) : Nat :=
  session.computing.toList.length +
    ((session.handling.uncounted ++ session.engine.commits ++ session.engine.posting.toList ++
      session.engine.measured.toList).filterMap CommitJob.batch?).length

def truncationsUnderway (session : Session α) : Nat :=
  ((session.queued ++ session.engine.posting.toList).filterMap CommitJob.truncation?).length

def truncationsShown (engine : Engine α) : Nat :=
  (engine.consumer.shown.filterMap Notice.truncation?).length

/-- The figures of the three tasks differ by what is underway, and only events of their kind move them;
missing samples and flushes are none of those. -/
structure Conserved (session : Session α) : Prop where
  batches : session.engine.ingestion.figures.samplesReceived +
      session.engine.ingestion.figures.queueUpdates + session.engine.rateTicks =
    session.engine.consumer.figures.applied + session.batchesUnderway
  truncations : session.engine.ingestion.figures.rollbacks =
    truncationsShown session.engine + session.truncationsUnderway
  figures : session.engine.ingestion.figures.Counts session.logbook.received
  ticks : session.engine.rateTicks = session.logbook.measured.length

variable {session : Session α} {store : SeriesStore α}

private theorem Accounted.applied_eq (h : session.Accounted store) :
    session.engine.consumer.figures.applied +
        (session.handling.uncounted.filterMap CommitJob.batch?).length =
      (session.logbook.performed.filterMap CommitJob.batch?).length +
        (session.handling.pending.filterMap CommitJob.batch?).length := by
  have happlied : session.counted.figures.applied =
      (session.logbook.performed.filterMap CommitJob.batch?).length := by
    rw [h.consumer]
    exact (Consumer.balanced_run store session.logbook.performed).applied
  rw [← happlied]
  cases hhandling : session.handling with
  | idle => simp [counted, hhandling, Handling.uncounted, Handling.pending]
  | taken job => simp [counted, hhandling, Handling.uncounted, Handling.pending]
  | shown job figures =>
    have hlag := h.uncounted job figures hhandling
    have hone : ([job].filterMap CommitJob.batch?).length = job.batch?.toList.length := by
      cases job <;> rfl
    simp only [counted, hhandling, Handling.uncounted, Handling.pending, hone, hlag]
    rfl

private theorem Accounted.length_measured (h : session.Accounted store) :
    (session.engine.measured.toList.filterMap CommitJob.batch?).length =
      session.engine.measured.toList.length := by
  cases hmeasured : session.engine.measured with
  | none => rfl
  | some job =>
    have hjob := h.measured job hmeasured
    match job with
    | .apply _ => rfl
    | .truncate _ | .barrier _ => cases hjob

private theorem Accounted.filter_posting (h : session.Accounted store) :
    session.engine.posting.toList.filter CommitJob.measures = [] := by
  refine List.filter_eq_nil_iff.2 fun job hjob => ?_
  simp [h.posting job (Option.mem_toList.1 hjob)]

private theorem Accounted.ingested_eq (h : session.Accounted store) :
    session.engine.ingestion.figures.samplesReceived +
        session.engine.ingestion.figures.queueUpdates =
      (session.logbook.performed.filterMap CommitJob.duty?).countP Duty.ofBatch +
        ((session.queued ++ session.engine.posting.toList).filterMap CommitJob.duty?).countP
          Duty.ofBatch + session.computing.toList.length := by
  have hcomputing : ∀ taken : Option (BlockSample × Int64),
      (taken.toList.map fun own => (Duty.block own.1.height : Duty α)).countP Duty.ofBatch =
        taken.toList.length := by
    intro taken
    cases taken <;> rfl
  rw [← h.figures.batches (α := α), ← h.duties, List.countP_append, underway, List.countP_append,
    hcomputing, Nat.add_assoc]

private theorem Accounted.measured_eq (h : session.Accounted store) :
    session.engine.rateTicks =
      (session.logbook.performed.filter CommitJob.measures).length +
        (session.queued.filter CommitJob.measures).length +
          session.engine.measured.toList.length := by
  rw [h.ticks, ← h.measurements, List.length_append, List.filter_append, List.length_append]

private theorem Accounted.conserved (h : session.Accounted store) : session.Conserved where
  batches := by
    have hingested := h.ingested_eq
    have hmeasured := h.measured_eq
    have happlied := h.applied_eq
    have hperformed := length_batches session.logbook.performed
    have hpending := length_batches session.handling.pending
    have hcommits := length_batches session.engine.commits
    have hposting := length_batches session.engine.posting.toList
    have hnone := h.filter_posting
    have hall := h.length_measured
    simp only [batchesUnderway, queued, List.filterMap_append, List.filter_append,
      List.length_append, List.countP_append, hnone, List.length_nil] at *
    omega
  truncations := by
    have hshown : session.engine.consumer.shown = session.counted.shown := by
      unfold counted
      split <;> rfl
    have hbalanced := Consumer.balanced_run store session.logbook.performed
    rw [← h.consumer] at hbalanced
    have hcomputing : (session.computing.toList.map fun taken =>
        (Duty.block taken.1.height : Duty α)).filterMap Duty.truncation? = [] := by
      cases session.computing <;> rfl
    rw [← h.figures.truncations (α := α), ← h.duties, List.filterMap_append, List.length_append,
      underway, List.filterMap_append, hcomputing, List.append_nil, filterMap_truncation?_duty?,
      filterMap_truncation?_duty?, truncationsShown, hshown, hbalanced.truncations,
      truncationsUnderway]
  figures := h.figures
  ticks := h.ticks

/-- The figures of the three tasks agree, so that nothing is underway. -/
structure Agrees (engine : Engine α) : Prop where
  batches : engine.ingestion.figures.samplesReceived + engine.ingestion.figures.queueUpdates +
    engine.rateTicks = engine.consumer.figures.applied
  truncations : engine.ingestion.figures.rollbacks = truncationsShown engine

omit [Scalar α] in
private theorem Conserved.agrees (h : session.Conserved) (horderly : session.Orderly)
    (hfinished : session.engine.phase = .finished) : Agrees session.engine := by
  obtain ⟨-, -, hcomputing, hposting, hmeasured, hcommits, hhandling⟩ :=
    horderly.nothing_left hfinished
  have hbatches := h.batches
  have htruncations := h.truncations
  simp only [batchesUnderway, truncationsUnderway, queued, hcomputing, hposting, hmeasured,
    hcommits, hhandling, Handling.uncounted, Handling.pending] at hbatches htruncations
  exact ⟨hbatches, htruncations⟩

/-- Whatever the groups make of the samples, and however the tasks take turns: the batches that ingestion
and measuring have counted are those that the consumer has counted and those underway, and likewise for
truncations. Once the tasks have ended, as they have after the stop that waited for them, the figures
agree. -/
theorem figures_conserved {config : EngineConfig} {fresh : Engine α}
    (hbuild : Engine.build config = .ok fresh) (groups : List (Group α)) (route : ErrorRoute) :
    let engine := fresh.equipped groups route
    (∀ acts, ((opening engine).after acts).Conserved) ∧
      (∀ acts, ((opening engine).after acts).engine.phase = .finished →
        Agrees ((opening engine).after acts).engine) ∧
      (∀ calls, ∃ acts, ((opening engine).after acts).engine = engine.afterCalls calls) ∧
      (∀ calls, (engine.afterCalls calls).phase = .running →
        (engine.afterCalls calls).stop.phase = .finished ∧
          Agrees (engine.afterCalls calls).stop) := by
  intro engine
  obtain ⟨horderly, haccounted⟩ := accounted_of_build hbuild groups route
  have hconserved (acts : List (Act α)) : ((opening engine).after acts).Conserved :=
    (haccounted.after horderly acts).conserved
  have hagrees (acts : List (Act α))
      (hfinished : ((opening engine).after acts).engine.phase = .finished) :
      Agrees ((opening engine).after acts).engine :=
    (hconserved acts).agrees (horderly.after acts) hfinished
  have hcalls (calls : List Engine.Call) :
      ∃ acts, ((opening engine).after acts).engine = engine.afterCalls calls := by
    obtain ⟨acts, -, hacts⟩ := (between_of_build hbuild groups route).exists_acts_of_calls calls
    exact ⟨acts, hacts⟩
  refine ⟨hconserved, hagrees, hcalls, fun calls hrunning => ?_⟩
  have hfinished := Engine.phase_stop hrunning
  obtain ⟨acts, hacts⟩ := hcalls (calls ++ [.stop])
  have hstop : engine.afterCalls (calls ++ [.stop]) = (engine.afterCalls calls).stop := by
    simp [Engine.afterCalls, Engine.call]
  rw [hstop] at hacts
  rw [← hacts] at hfinished ⊢
  exact ⟨hfinished, hagrees acts hfinished⟩

/-- A sample whose only group fails, a queue status, a rollback, a cycle without a sample and a flush,
with a measurement in between: at first one batch is shown and not counted, one is at the groups and one
is measured; after a stop all three are counted. -/
theorem figures_conserved_failing :
    let config : EngineConfig := { chartHistory := 2, speedHistory := 2, window := 1 }
    let failure : EngineError := .computation .timing (.reason "no clock")
    let failing : Group Rat := ⟨.timing, fun _ _ set => (.failed failure, set)⟩
    let events : List IngestEvent := [.queueStatus { verified := 1, unverified := 2 },
      .sample none, .sample (some ({ height := 7 }, 1000)), .blockPopped 5]
    let acts : List (Act Rat) := List.flatten [events.map .submit, [.start, .ask, .receive, .post,
      .receive, .receive, .measure 1000, .measure 2000, .fetch, .perform]]
    let calls : List Engine.Call := List.flatten [events.map .submit, [.start,
      .step (.measurement 1000), .step (.measurement 2000), .step .ingestion]]
    ∃ fresh : Engine Rat, Engine.build config = .ok fresh ∧
      ((opening (fresh.equipped [failing] .counted)).after acts).batchesUnderway = 3 ∧
      ((opening (fresh.equipped [failing] .counted)).after acts).Conserved ∧
      ((fresh.equipped [failing] .counted).afterCalls calls).phase = .running ∧
      ((fresh.equipped [failing] .counted).afterCalls calls).stop.consumer.figures.applied = 3 ∧
      Agrees ((fresh.equipped [failing] .counted).afterCalls calls).stop := by
  intro config failure failing events acts calls
  have hrun : ∀ fresh ∈ (Engine.build config : Except SizeError (Engine Rat)).toOption,
      ((opening (fresh.equipped [failing] .counted)).after acts).batchesUnderway = 3 ∧
      ((fresh.equipped [failing] .counted).afterCalls calls).phase = .running ∧
      ((fresh.equipped [failing] .counted).afterCalls calls).stop.consumer.figures.applied = 3 := by
    decide +kernel
  obtain ⟨fresh, -, hbuild, -⟩ :=
    Engine.exists_build (α := Rat) (show 0 < config.window by decide) (by decide)
  obtain ⟨hunderway, hrunning, happlied⟩ := hrun fresh (by rw [hbuild]; rfl)
  obtain ⟨hconserved, -, -, hstopped⟩ := figures_conserved hbuild [failing] .counted
  exact ⟨fresh, hbuild, hunderway, hconserved acts, hrunning, happlied, (hstopped calls hrunning).2⟩

end Session

end NodeTelemetry
