import NodeTelemetry.Proofs.Commit.Bookkeeping
import NodeTelemetry.Proofs.Engine.Session

/-!
What every session keeps. The tasks live in order: the consumer outlives those that post to it, and a
task that has ended has left nothing behind. The logbook accounts for everything: an accepted event
waits, is worked on or is done, and so is the job of every measurement.
-/

set_option autoImplicit false

namespace NodeTelemetry

variable {α : Type} [Scalar α]

def CommitJob.measures (job : CommitJob α) : Bool := job.duty?.isNone

namespace Handling

omit [Scalar α]

def pending : Handling α → List (CommitJob α)
  | .taken job => [job]
  | .idle | .shown _ _ => []

def uncounted : Handling α → List (CommitJob α)
  | .taken job | .shown job _ => [job]
  | .idle => []

end Handling

structure IngestFigures.Counts (figures : IngestFigures) (events : List IngestEvent) : Prop where
  samplesReceived : figures.samplesReceived = (events.filterMap IngestEvent.sample?).length
  samplesMissing : figures.samplesMissing = events.countP (· = .sample none)
  queueUpdates : figures.queueUpdates = events.countP fun
    | .queueStatus _ => true
    | _ => false
  rollbacks : figures.rollbacks = events.countP fun
    | .blockPopped _ => true
    | _ => false

namespace IngestFigures.Counts

variable {ingestion : Ingestion α} {events : List IngestEvent}

omit [Scalar α] in
private theorem sample {figures : IngestFigures} (h : figures.Counts events)
    (taken : BlockSample × Int64) :
    Counts { figures with samplesReceived := figures.samplesReceived + 1 }
      (events ++ [.sample (some taken)]) where
  samplesReceived := by
    rw [List.filterMap_append, List.length_append, ← h.samplesReceived]
    rfl
  samplesMissing := by
    rw [List.countP_append, ← h.samplesMissing]
    rfl
  queueUpdates := by
    rw [List.countP_append, ← h.queueUpdates]
    rfl
  rollbacks := by
    rw [List.countP_append, ← h.rollbacks]
    rfl

private theorem handle (h : ingestion.figures.Counts events) (groups : List (Group α))
    (route : ErrorRoute) {event : IngestEvent} (hevent : ∀ taken, event ≠ .sample (some taken)) :
    (ingestion.handle groups route event).1.figures.Counts (events ++ [event]) := by
  have hcounted := h
  obtain ⟨hsamples, hmissing, hupdates, hrollbacks⟩ := h
  match event with
  | .sample (some taken) => exact absurd rfl (hevent taken)
  | .sample none | .queueStatus _ | .blockPopped _ | .flush _ =>
    constructor
    · rw [List.filterMap_append, List.length_append, ← hsamples]
      rfl
    · rw [List.countP_append, ← hmissing]
      rfl
    · rw [List.countP_append, ← hupdates]
      rfl
    · rw [List.countP_append, ← hrollbacks]
      rfl

end IngestFigures.Counts

namespace Session

/-! ### The lives of the tasks -/

structure Orderly (session : Session α) : Prop where
  /-- Before the start there are no tasks. -/
  unstarted : session.engine.phase = .waiting → session.ingesting = false ∧
    session.engine.measuring = false ∧ session.consuming = false ∧
    session.joinable = false ∧ session.joining = false
  /-- The consumer outlives those that post to it. -/
  served : session.ingesting = true ∨ session.engine.measuring = true → session.consuming = true
  ingested : session.ingesting = false → session.computing = none ∧ session.engine.posting = none
  drained : session.engine.phase ≠ .waiting → session.ingesting = false →
    session.engine.intakeOpen = false ∧ session.engine.intake = []
  measured : session.engine.measuring = false → session.engine.measured = none
  emptied : session.consuming = false → session.engine.commits = [] ∧ session.handling = .idle
  single : session.computing = none ∨ session.engine.posting = none
  closed : session.joining = true ∨ session.engine.phase = .finished →
    session.engine.intakeOpen = false
  /-- One stop waits for the tasks, and no other. -/
  awaited : session.engine.phase = .running → session.joinable = !session.joining
  ended : session.engine.phase = .finished → session.consuming = false ∧ session.joinable = false

variable {session next : Session α} {act : Act α}

omit [Scalar α] in
private theorem orderly_opening {engine : Engine α} (hphase : engine.phase = .waiting)
    (hmeasuring : engine.measuring = false) (hposting : engine.posting = none)
    (hmeasured : engine.measured = none) (hcommits : engine.commits = []) :
    (opening engine).Orderly where
  unstarted := fun _ => ⟨rfl, hmeasuring, rfl, rfl, rfl⟩
  served := by
    rintro (h | h)
    · cases h
    · cases h.symm.trans hmeasuring
  ingested := fun _ => ⟨rfl, hposting⟩
  drained := fun h => absurd hphase h
  measured := fun _ => hmeasured
  emptied := fun _ => ⟨hcommits, rfl⟩
  single := .inl rfl
  closed := by
    rintro (h | h)
    · cases h
    · cases hphase.symm.trans h
  awaited := fun h => by cases hphase.symm.trans h
  ended := fun h => by cases hphase.symm.trans h

omit [Scalar α] in
/-- Whoever holds a job to post is alive, and so is the consumer: the queue refuses nothing. -/
theorem Orderly.consuming_of_posting (h : session.Orderly) {job : CommitJob α}
    (hposting : session.engine.posting = some job) : session.consuming = true := by
  refine h.served (.inl ?_)
  by_contra hended
  have hnone := (h.ingested (Bool.not_eq_true _ ▸ hended)).2
  cases hposting.symm.trans hnone

omit [Scalar α] in
private theorem Orderly.consuming_of_measured (h : session.Orderly) {job : CommitJob α}
    (hmeasured : session.engine.measured = some job) : session.consuming = true := by
  refine h.served (.inr ?_)
  by_contra hended
  have hnone := h.measured (Bool.not_eq_true _ ▸ hended)
  cases hmeasured.symm.trans hnone

theorem Becomes.orderly (h : session.Becomes act next) (hsession : session.Orderly) :
    next.Orderly := by
  -- a task of a running engine that has ended has left the intake closed and nothing in hand
  have hstarted (hrunning : session.engine.phase = .running) : session.engine.phase ≠ .waiting := by
    simp [hrunning]
  cases h with
  | idle => exact hsession
  | start hwaiting =>
    obtain ⟨hingesting, hmeasuring, -, -, hjoining⟩ := hsession.unstarted hwaiting
    exact
      { hsession with
        unstarted := by simp
        served := fun _ => rfl
        ingested := by simp
        drained := by simp
        measured := by simp
        emptied := by simp
        closed := by simp [hjoining]
        awaited := by simp [hjoining]
        ended := by simp }
  | stop =>
    refine { hsession with unstarted := ?_, drained := ?_, closed := ?_, awaited := ?_, ended := ?_ }
    · intro hwaiting
      obtain ⟨hingesting, hmeasuring, hconsuming, hjoinable, hjoining⟩ :=
        hsession.unstarted hwaiting
      simp [hingesting, hmeasuring, hconsuming, hjoinable, hjoining]
    · intro hphase hingesting
      exact ⟨rfl, (hsession.drained hphase hingesting).2⟩
    · intro _
      rfl
    · intro hrunning
      simp [hsession.awaited hrunning]
    · intro hfinished
      exact ⟨(hsession.ended hfinished).1, rfl⟩
  | submit event hopen hreceiver =>
    refine { hsession with drained := ?_ }
    intro hphase hingesting
    have hclosed := (hsession.drained hphase hingesting).1
    cases hopen.symm.trans hclosed
  | ask hopen hreceiver =>
    refine { hsession with drained := ?_ }
    intro hphase hingesting
    have hclosed := (hsession.drained hphase hingesting).1
    cases hopen.symm.trans hclosed
  | take hrunning hingesting hcomputing hposting hintake =>
    have halive : session.ingesting ≠ false := by simp [hingesting]
    refine { hsession with ingested := ?_, drained := ?_, single := .inr hposting }
    · intro hended
      exact absurd hended halive
    · intro _ hended
      exact absurd hended halive
  | handle hrunning hingesting hcomputing hposting hintake hevent =>
    have halive : session.ingesting ≠ false := by simp [hingesting]
    refine { hsession with ingested := ?_, drained := ?_, single := .inl hcomputing }
    · intro hended
      exact absurd hended halive
    · intro _ hended
      exact absurd hended halive
  | compute work hrunning hcomputing =>
    refine { hsession with ingested := ?_, single := .inl rfl }
    intro hended
    have hnone := (hsession.ingested hended).1
    cases hcomputing.symm.trans hnone
  | post hrunning hposting hconsuming =>
    refine { hsession with ingested := ?_, emptied := ?_, single := .inr rfl }
    · intro hended
      exact ⟨(hsession.ingested hended).1, rfl⟩
    · intro hended
      cases hconsuming.symm.trans hended
  | forgo hrunning hposting hconsuming =>
    cases hconsuming.symm.trans (hsession.consuming_of_posting hposting)
  | leaveIngestion hrunning hclosed hintake hcomputing hposting =>
    refine
      { hsession with unstarted := ?_, served := ?_, ingested := ?_, drained := ?_ }
    · intro hwaiting
      exact absurd hwaiting (hstarted hrunning)
    · rintro (hingesting | hmeasuring)
      · cases hingesting
      · exact hsession.served (.inr hmeasuring)
    · intro _
      exact ⟨hcomputing, hposting⟩
    · intro _ _
      exact ⟨hclosed, hintake⟩
  | measure hrunning hmeasuring hmeasured hrun =>
    refine { hsession with measured := ?_ }
    intro hended
    cases hmeasuring.symm.trans hended
  | report hrunning hmeasured hconsuming =>
    refine { hsession with measured := fun _ => rfl, emptied := ?_ }
    intro hended
    cases hconsuming.symm.trans hended
  | forgoReport hrunning hmeasured hconsuming =>
    cases hconsuming.symm.trans (hsession.consuming_of_measured hmeasured)
  | leaveMeasuring hrunning hclosed hmeasured =>
    refine { hsession with unstarted := ?_, served := ?_, measured := fun _ => hmeasured }
    · intro hwaiting
      exact absurd hwaiting (hstarted hrunning)
    · rintro (hingesting | hmeasuring)
      · exact hsession.served (.inl hingesting)
      · cases hmeasuring
  | fetch hrunning hconsuming hhandling hcommits =>
    refine { hsession with emptied := ?_ }
    intro hended
    cases hconsuming.symm.trans hended
  | perform hrunning hhandling =>
    refine { hsession with emptied := ?_ }
    intro hended
    have hidle := (hsession.emptied hended).2
    cases hhandling.symm.trans hidle
  | count hrunning hhandling =>
    refine { hsession with emptied := ?_ }
    intro hended
    exact ⟨(hsession.emptied hended).1, rfl⟩
  | leaveConsumer hrunning hhandling hcommits hingesting hmeasuring =>
    refine { hsession with unstarted := ?_, served := ?_, emptied := ?_, ended := ?_ }
    · intro hwaiting
      exact absurd hwaiting (hstarted hrunning)
    · rintro (halive | halive)
      · cases hingesting.symm.trans halive
      · cases hmeasuring.symm.trans halive
    · intro _
      exact ⟨hcommits, hhandling⟩
    · intro hfinished
      cases hrunning.symm.trans hfinished
  | join hrunning hjoining hingesting hmeasuring hconsuming =>
    have hclosed := hsession.closed (.inl hjoining)
    refine
      { hsession with
        unstarted := by simp
        drained := ?_
        closed := fun _ => hclosed
        awaited := by simp
        ended := ?_ }
    · intro _ hended
      exact hsession.drained (hstarted hrunning) hended
    · intro _
      have hawaited := hsession.awaited hrunning
      rw [hjoining] at hawaited
      exact ⟨hconsuming, hawaited⟩
  | _ => exact { hsession with }

theorem Becomes.waiting_iff (h : session.Becomes act next) :
    next.engine.phase = .waiting ↔ session.engine.phase = .waiting ∧ act ≠ .start := by
  cases h with
  | idle hstart hstop =>
    constructor
    · intro hwaiting
      exact ⟨hwaiting, fun hact => hstart hact hwaiting⟩
    · exact And.left
  | join hrunning => simp [hrunning]
  | _ => simp

private theorem Becomes.intakeOpen_iff (h : session.Becomes act next) :
    next.engine.intakeOpen = true ↔ session.engine.intakeOpen = true ∧ act ≠ .stop := by
  cases h with
  | idle hstart hstop => simp [hstop]
  | _ => simp

theorem waiting_after_iff (session : Session α) (acts : List (Act α)) :
    (session.after acts).engine.phase = .waiting ↔
      session.engine.phase = .waiting ∧ .start ∉ acts := by
  induction acts generalizing session with
  | nil => simp [after]
  | cons act acts ih =>
    have hrest := ih (session.make act)
    rw [(session.becomes_make act).waiting_iff] at hrest
    rw [List.mem_cons, not_or, ← and_assoc, @eq_comm _ Act.start act]
    exact hrest

theorem intakeOpen_after_iff (session : Session α) (acts : List (Act α)) :
    (session.after acts).engine.intakeOpen = true ↔
      session.engine.intakeOpen = true ∧ .stop ∉ acts := by
  induction acts generalizing session with
  | nil => simp [after]
  | cons act acts ih =>
    have hrest := ih (session.make act)
    rw [(session.becomes_make act).intakeOpen_iff] at hrest
    rw [List.mem_cons, not_or, ← and_assoc, @eq_comm _ Act.stop act]
    exact hrest

theorem Orderly.after (h : session.Orderly) (acts : List (Act α)) : (session.after acts).Orderly := by
  induction acts generalizing session with
  | nil => exact h
  | cons act acts ih => exact ih ((session.becomes_make act).orderly h)

/-! ### Accounts -/

/-- The jobs that were posted and are not on display, oldest first. -/
def queued (session : Session α) : List (CommitJob α) :=
  session.handling.pending ++ session.engine.commits

/-- What the events that ingestion has taken ask for and what is not on display, oldest first. -/
def underway (session : Session α) : List (Duty α) :=
  (session.queued ++ session.engine.posting.toList).filterMap CommitJob.duty? ++
    session.computing.toList.map fun taken => .block taken.1.height

def counted (session : Session α) : Consumer α :=
  match session.handling with
  | .shown _ figures => { session.engine.consumer with figures }
  | .idle | .taken _ => session.engine.consumer

structure Accounted (store : SeriesStore α) (session : Session α) : Prop where
  arrivals : session.logbook.accepted = session.logbook.received ++ session.engine.intake
  duties : session.logbook.performed.filterMap CommitJob.duty? ++ session.underway =
    session.logbook.received.filterMap IngestEvent.duty?
  measurements : (session.logbook.performed ++ session.queued).filter CommitJob.measures ++
    session.engine.measured.toList = session.logbook.measured
  posting : ∀ job ∈ session.engine.posting, job.measures = false
  measured : ∀ job ∈ session.engine.measured, job.measures = true
  consumer : session.counted = (Consumer.fresh store).run session.logbook.performed
  uncounted : ∀ job figures, session.handling = .shown job figures →
    figures.applied = session.engine.consumer.figures.applied + job.batch?.toList.length
  figures : session.engine.ingestion.figures.Counts session.logbook.received
  ticks : session.engine.rateTicks = session.logbook.measured.length

variable {store : SeriesStore α}

private theorem measures_of_handle {engine : Engine α} {event : IngestEvent} {job : CommitJob α}
    (h : job ∈ (engine.ingestion.handle engine.groups engine.route event).2.job?) :
    job.measures = false := by
  match event with
  | .sample none => cases h
  | .sample (some _) | .queueStatus _ | .blockPopped _ | .flush _ =>
    cases h
    rfl

private theorem Becomes.accounted (h : session.Becomes act next) (horderly : session.Orderly)
    (hsession : session.Accounted store) : next.Accounted store := by
  have hduties := hsession.duties
  have hmeasurements := hsession.measurements
  cases h with
  | idle => exact hsession
  | submit event =>
    refine { hsession with arrivals := ?_ }
    simp [hsession.arrivals]
  | ask =>
    refine { hsession with arrivals := ?_ }
    simp [hsession.arrivals]
  | @take taken later hrunning hingesting hcomputing hposting hintake =>
    refine { hsession with arrivals := ?_, duties := ?_, figures := ?_ }
    · simp [hsession.arrivals, hintake]
    · simp only [underway, queued, hcomputing] at hduties ⊢
      simp [← hduties, hposting, IngestEvent.duty?]
    · exact hsession.figures.sample taken
  | @handle event later hrunning hingesting hcomputing hposting hintake hevent =>
    have hduty := session.engine.duty?_of_handle event
    refine { hsession with arrivals := ?_, duties := ?_, posting := ?_, figures := ?_ }
    · simp [hsession.arrivals, hintake]
    · simp only [underway, queued, hposting, hcomputing] at hduties ⊢
      rw [List.filterMap_append, hduty]
      cases hask : (event.duty? : Option (Duty α)) <;> simp [← hduties, hask]
    · intro job hjob
      exact measures_of_handle hjob
    · exact hsession.figures.handle _ _ hevent
  | @compute block receivedAt work hrunning hcomputing =>
    have hposting : session.engine.posting = none := by
      rcases horderly.single with hnone | hposting
      · cases hcomputing.symm.trans hnone
      · exact hposting
    refine { hsession with duties := ?_, posting := ?_, figures := ?_ }
    · simp only [underway, queued, hcomputing, hposting] at hduties ⊢
      simp [← hduties, CommitJob.duty?, Batch.duty?, Batch.ofCompletions]
    · intro job hjob
      cases hjob
      rfl
    · exact { hsession.figures with }
  | @post job hrunning hposting hconsuming =>
    have hown := hsession.posting job hposting
    refine { hsession with duties := ?_, measurements := ?_, posting := ?_ }
    · simp only [underway, queued, hposting] at hduties ⊢
      simp [← hduties]
    · simp only [queued] at hmeasurements ⊢
      simp [← hmeasurements, hown]
    · intro held hheld
      cases hheld
  | forgo hrunning hposting hconsuming =>
    exact absurd hconsuming (by simp [horderly.consuming_of_posting hposting])
  | measure hrunning hmeasuring hmeasured hrun =>
    obtain ⟨upload, download, hbatch⟩ := RateMeter.exists_batch_of_tick hrun
    refine { hsession with measurements := ?_, measured := ?_, ticks := ?_ }
    · simp only [queued, hmeasured] at hmeasurements ⊢
      simp [← hmeasurements]
    · intro job hjob
      cases hjob
      simp [CommitJob.measures, CommitJob.duty?, Batch.duty?, hbatch]
    · simp [hsession.ticks]
  | @report job hrunning hmeasured hconsuming =>
    have hjob := hsession.measured job hmeasured
    have hnoDuty : job.duty? = none := Option.isNone_iff_eq_none.1 hjob
    refine { hsession with duties := ?_, measurements := ?_, measured := ?_ }
    · simp only [underway, queued] at hduties ⊢
      simp [← hduties, hnoDuty]
    · simp only [queued, hmeasured] at hmeasurements ⊢
      simp [← hmeasurements, hjob]
    · intro held hheld
      cases hheld
  | forgoReport hrunning hmeasured hconsuming =>
    exact absurd hconsuming (by simp [horderly.consuming_of_measured hmeasured])
  | @fetch job later hrunning hconsuming hhandling hcommits =>
    have hconsumer := hsession.consumer
    refine
      { hsession with duties := ?_, measurements := ?_, consumer := ?_, uncounted := ?_ }
    · simp only [underway, queued, hhandling, hcommits] at hduties ⊢
      simpa [Handling.pending] using hduties
    · simp only [queued, hhandling, hcommits] at hmeasurements ⊢
      simpa [Handling.pending] using hmeasurements
    · simpa [counted, hhandling] using hconsumer
    · intro other figures hshown
      cases hshown
  | @perform job hrunning hhandling =>
    have hconsumer := hsession.consumer
    refine
      { hsession with duties := ?_, measurements := ?_, consumer := ?_, uncounted := ?_ }
    · simp only [underway, queued, hhandling] at hduties ⊢
      cases hduty : job.duty? <;> simp [← hduties, Handling.pending, hduty]
    · simp only [queued, hhandling] at hmeasurements ⊢
      simpa [Handling.pending] using hmeasurements
    · have hrun : (Consumer.fresh store).run (session.logbook.performed ++ [job]) =
          ((Consumer.fresh store).run session.logbook.performed).step job := List.foldl_append
      simp only [counted, hhandling] at hconsumer ⊢
      rw [hrun, ← hconsumer]
    · intro other figures hshown
      cases hshown
      cases job <;> rfl
  | @count job figures hrunning hhandling =>
    have hconsumer := hsession.consumer
    refine
      { hsession with duties := ?_, measurements := ?_, consumer := ?_, uncounted := ?_ }
    · simp only [underway, queued, hhandling] at hduties ⊢
      exact hduties
    · simp only [queued, hhandling] at hmeasurements ⊢
      exact hmeasurements
    · simp only [counted, hhandling] at hconsumer ⊢
      exact hconsumer
    · intro other later hshown
      cases hshown
  | _ => exact { hsession with }

theorem Accounted.after (h : session.Accounted store) (horderly : session.Orderly)
    (acts : List (Act α)) : (session.after acts).Accounted store := by
  induction acts generalizing session with
  | nil => exact h
  | cons act acts ih =>
    have hbecomes := session.becomes_make act
    exact ih (hbecomes.accounted horderly h) (hbecomes.orderly horderly)

theorem accounted_of_build {config : EngineConfig} {fresh : Engine α}
    (hbuild : Engine.build config = .ok fresh) (groups : List (Group α)) (route : ErrorRoute) :
    (opening (fresh.equipped groups route)).Orderly ∧
      (opening (fresh.equipped groups route)).Accounted (.ofDescriptors catalogue config.histories) := by
  obtain ⟨set, -, hfresh⟩ := exists_of_bind hbuild
  cases hfresh
  refine ⟨orderly_opening rfl rfl rfl rfl rfl, ?_⟩
  refine
    { arrivals := rfl
      duties := rfl
      measurements := rfl
      posting := ?_
      measured := ?_
      consumer := rfl
      uncounted := ?_
      figures := ⟨rfl, rfl, rfl, rfl⟩
      ticks := rfl }
  · intro job hjob
    cases hjob
  · intro job hjob
    cases hjob
  · intro job figures hshown
    cases hshown

omit [Scalar α] in
theorem Orderly.nothing_left (h : session.Orderly) (hfinished : session.engine.phase = .finished) :
    session.engine.intakeOpen = false ∧ session.engine.intake = [] ∧ session.computing = none ∧
      session.engine.posting = none ∧ session.engine.measured = none ∧
      session.engine.commits = [] ∧ session.handling = .idle := by
  have hconsuming := (h.ended hfinished).1
  have hneither : ¬(session.ingesting = true ∨ session.engine.measuring = true) := by
    intro halive
    cases hconsuming.symm.trans (h.served halive)
  simp only [not_or, Bool.not_eq_true] at hneither
  obtain ⟨hingesting, hmeasuring⟩ := hneither
  have hstarted : session.engine.phase ≠ .waiting := by simp [hfinished]
  obtain ⟨hclosed, hintake⟩ := h.drained hstarted hingesting
  obtain ⟨hcomputing, hposting⟩ := h.ingested hingesting
  obtain ⟨hcommits, hhandling⟩ := h.emptied hconsuming
  exact ⟨hclosed, hintake, hcomputing, hposting, h.measured hmeasuring, hcommits, hhandling⟩

end Session

end NodeTelemetry
