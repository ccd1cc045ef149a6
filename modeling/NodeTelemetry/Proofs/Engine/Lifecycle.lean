import NodeTelemetry.Proofs.Accumulator.Views
import NodeTelemetry.Proofs.Engine.Settling

/-!
The life of an engine: one start, any number of stops, and events at any time. The answers to the calls
depend only on the starts and the stops before them; what was accepted is worked on in its order, and
when the stop that waits for the tasks returns, all of it is done and the dashboard has come to rest.
-/

set_option autoImplicit false

namespace NodeTelemetry

variable {α : Type} [Scalar α]

namespace Session

variable {session next : Session α} {act : Act α} {store : SeriesStore α}

/-! ### What the calls so far decide -/

def StoppedAfterStart (acts : List (Act α)) : Prop :=
  ∃ before later, acts = before ++ .stop :: later ∧ .start ∈ before

omit [Scalar α] in
private theorem stoppedAfterStart_concat {acts : List (Act α)} :
    StoppedAfterStart (acts ++ [act]) ↔ StoppedAfterStart acts ∨ act = .stop ∧ .start ∈ acts := by
  constructor
  · rintro ⟨before, later, hacts, hstart⟩
    cases later using List.reverseRecOn with
    | nil =>
      obtain ⟨rfl, hact⟩ := List.append_inj' hacts rfl
      cases hact
      exact .inr ⟨rfl, hstart⟩
    | append_singleton later last =>
      rw [← List.cons_append, ← List.append_assoc] at hacts
      obtain ⟨rfl, -⟩ := List.append_inj' hacts rfl
      exact .inl ⟨before, later, rfl, hstart⟩
  · rintro (⟨before, later, rfl, hstart⟩ | ⟨rfl, hstart⟩)
    · exact ⟨before, later ++ [act], by simp, hstart⟩
    · exact ⟨acts, [], rfl, hstart⟩

def Awaited (session : Session α) : Prop :=
  session.joining = true ∨ session.engine.phase = .finished

private theorem Becomes.awaited_iff (h : session.Becomes act next) (hsession : session.Orderly) :
    next.Awaited ↔ session.Awaited ∨ act = .stop ∧ session.engine.phase ≠ .waiting := by
  unfold Awaited
  cases h with
  | idle hstart hstop => simp [hstop]
  | start hwaiting => simp [hwaiting]
  | stop =>
    cases hphase : session.engine.phase with
    | waiting => simp [hsession.unstarted hphase]
    | running => simp [hsession.awaited hphase]
    | finished => simp
  | join hrunning hjoining => simp [hjoining]
  | _ => simp

private theorem awaited_after_iff (hsession : session.Orderly)
    (hwaiting : session.engine.phase = .waiting)
    (acts : List (Act α)) : (session.after acts).Awaited ↔ StoppedAfterStart acts := by
  induction acts using List.reverseRecOn with
  | nil =>
    have hjoining := (hsession.unstarted hwaiting).2.2.2.2
    simp [after, Awaited, StoppedAfterStart, hwaiting, hjoining]
  | append_singleton acts act ih =>
    have hphase : (session.after acts).engine.phase ≠ .waiting ↔ .start ∈ acts := by
      rw [Ne, waiting_after_iff, not_and_not_right]
      simp [hwaiting]
    rw [after_append, after_singleton, (Session.becomes_make _ act).awaited_iff (hsession.after acts), ih,
      hphase, stoppedAfterStart_concat]

/-- Until the start nothing is taken from the intake, and the accumulators are as they were built. -/
structure Unstarted (session : Session α) : Prop where
  received : session.logbook.received = []
  measured : session.logbook.measured = []
  performed : session.logbook.performed = []
  accumulators : ∃ acc, session.engine.accumulators.Shows acc
  meter : session.engine.meter = ⟨.network, none⟩

private theorem Becomes.unstarted (h : session.Becomes act next)
    (hwaiting : next.engine.phase = .waiting) (hsession : session.Unstarted) : next.Unstarted := by
  cases h with
  | start => cases hwaiting
  | join => cases hwaiting
  | setWindow hset =>
    obtain ⟨acc, hshows⟩ := hsession.accumulators
    exact { hsession with accumulators := ⟨_, hshows.setWindow hset⟩ }
  | idle | stop | submit | ask | setVolume => exact { hsession with }
  | take hrunning | handle hrunning | compute _ hrunning | post hrunning | forgo hrunning
  | leaveIngestion hrunning | observe _ _ hrunning | measure hrunning | report hrunning
  | forgoReport hrunning | leaveMeasuring hrunning | fetch hrunning | perform hrunning
  | count hrunning | leaveConsumer hrunning => cases hrunning.symm.trans hwaiting

private theorem Unstarted.after (h : session.Unstarted) {acts : List (Act α)}
    (hwaiting : (session.after acts).engine.phase = .waiting) : (session.after acts).Unstarted := by
  induction acts using List.reverseRecOn with
  | nil => exact h
  | append_singleton acts act ih =>
    rw [after_append, after_singleton] at hwaiting ⊢
    have hbecomes := (session.after acts).becomes_make act
    exact hbecomes.unstarted hwaiting (ih (hbecomes.waiting_iff.1 hwaiting).1)

omit [Scalar α] in
private theorem Unstarted.ofView_eq (h : session.Unstarted) :
    RateMeter.ofView session.engine.accumulators .network = .ok session.engine.meter := by
  obtain ⟨acc, hshows⟩ := h.accumulators
  have hupload : session.engine.accumulators.lookup .network Metric.uploadSpeed.name =
      .ok (acc .uploadSpeed) := hshows.lookup rfl rfl
  have hdownload : session.engine.accumulators.lookup .network Metric.downloadSpeed.name =
      .ok (acc .downloadSpeed) := hshows.lookup rfl rfl
  rw [h.meter, RateMeter.ofView, hupload, hdownload]
  rfl

/-! ### Answers -/

/-- How the calls are answered after a run. The first start succeeds, whether or not there was a stop; an
event or a flush is accepted until the first stop. What is refused leaves no trace. -/
structure Answers (acts : List (Act α)) (session : Session α) : Prop where
  start_iff : (∃ started, session.start = .ok started) ↔ .start ∉ acts
  setUp : .start ∉ acts →
    RateMeter.ofView session.engine.accumulators .network = .ok session.engine.meter
  startRefused : .start ∈ acts →
    session.start = .error .startedBefore ∧ session.make .start = session
  submit_iff : ∀ event, (session.submit event).2 = true ↔ .stop ∉ acts
  submitRefused : ∀ event, .stop ∈ acts → session.make (.submit event) = session
  ask_iff : session.ask.2 = true ↔ .stop ∉ acts
  askRefused : .stop ∈ acts → session.make .ask = session
  /-- A stop waits for the tasks, or has waited, exactly if one came after the start. -/
  awaited_iff : session.Awaited ↔ StoppedAfterStart acts

omit [Scalar α] in
private theorem start_of_waiting (h : session.engine.phase = .waiting) :
    ∃ started, session.start = .ok started := by
  simp [start, Engine.start, h, bind, Except.bind, pure, Except.pure]

omit [Scalar α] in
private theorem start_of_started (h : session.engine.phase ≠ .waiting) :
    session.start = .error .startedBefore := by
  simp [start, Engine.start, h, bind, Except.bind]

omit [Scalar α] in
private theorem submit_of_closed (h : session.engine.intakeOpen = false) (event : IngestEvent) :
    session.submit event = (session, false) := by
  simp [submit, h]

omit [Scalar α] in
private theorem ask_of_closed (h : session.engine.intakeOpen = false) :
    session.ask = (session, false) := by
  simp [ask, submit_of_closed h]

omit [Scalar α] in
private theorem Orderly.submit_of_open (h : session.Orderly)
    (hopen : session.engine.intakeOpen = true)
    (event : IngestEvent) : (session.submit event).2 = true := by
  simp [submit, hopen, h.hasReceiver hopen]

omit [Scalar α] in
private theorem Orderly.ask_of_open (h : session.Orderly)
    (hopen : session.engine.intakeOpen = true) : session.ask.2 = true := by
  simp [ask, submit, hopen, h.hasReceiver hopen]

private theorem answers_after (hsession : session.Orderly) (hunstarted : session.Unstarted)
    (hwaiting : session.engine.phase = .waiting) (hopen : session.engine.intakeOpen = true)
    (acts : List (Act α)) : Answers acts (session.after acts) := by
  have horderly := hsession.after acts
  have hphase : (session.after acts).engine.phase = .waiting ↔ .start ∉ acts := by
    simp [waiting_after_iff, hwaiting]
  have hstops : (session.after acts).engine.intakeOpen = true ↔ .stop ∉ acts := by
    simp [intakeOpen_after_iff, hopen]
  have hclosed : .stop ∈ acts → (session.after acts).engine.intakeOpen = false := by
    intro hstop
    by_contra hstill
    exact hstops.1 (Bool.not_eq_false _ ▸ hstill) hstop
  constructor
  · constructor
    · rintro ⟨started, hstarted⟩ hmem
      have hnot : (session.after acts).engine.phase ≠ .waiting := fun h => hphase.1 h hmem
      cases hstarted.symm.trans (start_of_started hnot)
    · intro hnone
      exact start_of_waiting (hphase.2 hnone)
  · intro hnone
    exact (hunstarted.after (hphase.2 hnone)).ofView_eq
  · intro hmem
    have hnot : (session.after acts).engine.phase ≠ .waiting := fun h => hphase.1 h hmem
    have hrefused := start_of_started hnot
    refine ⟨hrefused, ?_⟩
    simp [make, hrefused]
  · intro event
    constructor
    · intro haccepted hmem
      rw [submit_of_closed (hclosed hmem)] at haccepted
      cases haccepted
    · intro hnone
      exact horderly.submit_of_open (hstops.2 hnone) event
  · intro event hmem
    simp [make, submit_of_closed (hclosed hmem)]
  · constructor
    · intro haccepted hmem
      rw [ask_of_closed (hclosed hmem)] at haccepted
      cases haccepted
    · intro hnone
      exact horderly.ask_of_open (hstops.2 hnone)
  · intro hmem
    simp [make, ask_of_closed (hclosed hmem)]
  · exact awaited_after_iff hsession hwaiting acts

/-! ### Progress and end -/

/-- How far the session has got. Nothing happens before the start; from then on the accepted events are
taken in their order, what they ask for is done in that order and once, and so is every measurement. -/
structure Progress (store : SeriesStore α) (acts : List (Act α)) (session : Session α) : Prop where
  unstarted : .start ∉ acts → session.logbook.received = [] ∧ session.logbook.measured = [] ∧
    session.logbook.performed = []
  arrivals : session.logbook.accepted = session.logbook.received ++ session.engine.intake
  duties : session.logbook.performed.filterMap CommitJob.duty? ++
      (session.underway ++ session.engine.intake.filterMap IngestEvent.duty?) =
    session.logbook.accepted.filterMap IngestEvent.duty?
  measurements : (session.logbook.performed ++ session.queued).filter CommitJob.measures ++
    session.engine.measured.toList = session.logbook.measured
  dashboard : session.engine.dashboard = (Dashboard.empty store).performAll session.logbook.performed

structure Complete (session : Session α) : Prop where
  received : session.logbook.received = session.logbook.accepted
  duties : session.logbook.performed.filterMap CommitJob.duty? =
    session.logbook.accepted.filterMap IngestEvent.duty?
  measurements : session.logbook.performed.filter CommitJob.measures = session.logbook.measured
  intake : session.engine.intake = []
  commits : session.engine.commits = []
  ingestion : session.computing = none ∧ session.engine.posting = none
  measured : session.engine.measured = none
  handling : session.handling = .idle

private theorem Accounted.dashboard_eq (h : session.Accounted store) :
    session.engine.dashboard = (Dashboard.empty store).performAll session.logbook.performed := by
  have hshown : session.engine.dashboard = session.counted.dashboard := by
    unfold counted
    split <;> rfl
  rw [hshown, h.consumer, Consumer.dashboard_run]
  rfl

private theorem Accounted.complete (h : session.Accounted store) (horderly : session.Orderly)
    (hfinished : session.engine.phase = .finished) : session.Complete := by
  obtain ⟨-, hintake, hcomputing, hposting, hmeasured, hcommits, hhandling⟩ :=
    horderly.nothing_left hfinished
  have harrivals := h.arrivals
  have hduties := h.duties
  have hmeasurements := h.measurements
  rw [hintake, List.append_nil] at harrivals
  have hunderway : session.underway = [] := by
    simp [underway, queued, hcomputing, hposting, hcommits, hhandling, Handling.pending]
  have hqueued : session.queued = [] := by
    simp [queued, hcommits, hhandling, Handling.pending]
  rw [hunderway, List.append_nil, ← harrivals] at hduties
  rw [hqueued, hmeasured, List.append_nil, Option.toList_none, List.append_nil] at hmeasurements
  exact
    { received := harrivals.symm
      duties := hduties
      measurements := hmeasurements
      intake := hintake
      commits := hcommits
      ingestion := ⟨hcomputing, hposting⟩
      measured := hmeasured
      handling := hhandling }

/-- Once the tasks have ended, no act changes the dashboard or brings anything new. -/
theorem Becomes.at_rest (h : session.Becomes act next) (hsession : session.Orderly)
    (hfinished : session.engine.phase = .finished) :
    next.engine.phase = .finished ∧ next.engine.consumer = session.engine.consumer ∧
      next.logbook = session.logbook := by
  have hclosed := hsession.closed (.inr hfinished)
  cases h with
  | start hwaiting => cases hwaiting.symm.trans hfinished
  | submit event hopen => cases hopen.symm.trans hclosed
  | ask hopen => cases hopen.symm.trans hclosed
  | idle | stop | setWindow | setVolume => exact ⟨hfinished, rfl, rfl⟩
  | take hrunning | handle hrunning | compute _ hrunning | post hrunning | forgo hrunning
  | leaveIngestion hrunning | observe _ _ hrunning | measure hrunning | report hrunning
  | forgoReport hrunning | leaveMeasuring hrunning | fetch hrunning | perform hrunning
  | count hrunning | leaveConsumer hrunning | join hrunning => cases hrunning.symm.trans hfinished

private theorem Orderly.stays (h : session.Orderly) (hfinished : session.engine.phase = .finished)
    (acts : List (Act α)) :
    (session.after acts).engine.phase = .finished ∧
      (session.after acts).engine.consumer = session.engine.consumer ∧
      (session.after acts).logbook = session.logbook := by
  induction acts generalizing session with
  | nil => exact ⟨hfinished, rfl, rfl⟩
  | cons act acts ih =>
    have hbecomes := session.becomes_make act
    obtain ⟨hphase, hconsumer, hlogbook⟩ := hbecomes.at_rest h hfinished
    obtain ⟨hlast, hconsumer', hlogbook'⟩ := ih (hbecomes.orderly h) hphase
    exact ⟨hlast, hconsumer'.trans hconsumer, hlogbook'.trans hlogbook⟩

/-- The tasks have ended: a stop after the start has waited for them, everything is done, and whatever is
called later changes neither the dashboard nor what the display was told. -/
structure Ended (acts : List (Act α)) (session : Session α) : Prop where
  stopped : StoppedAfterStart acts
  complete : session.Complete
  stays : ∀ later, (session.after later).engine.phase = .finished ∧
    (session.after later).engine.consumer = session.engine.consumer ∧
    (session.after later).logbook = session.logbook

private theorem progress_after (horderly : session.Orderly) (haccounted : session.Accounted store)
    (hunstarted : session.Unstarted) (hwaiting : session.engine.phase = .waiting)
    (acts : List (Act α)) : Progress store acts (session.after acts) := by
  have h := haccounted.after horderly acts
  constructor
  · intro hnone
    have hphase := (waiting_after_iff session acts).2 ⟨hwaiting, hnone⟩
    have hnothing := hunstarted.after hphase
    exact ⟨hnothing.received, hnothing.measured, hnothing.performed⟩
  · exact h.arrivals
  · rw [← List.append_assoc, h.duties, h.arrivals, List.filterMap_append]
  · exact h.measurements
  · exact h.dashboard_eq

private theorem unstarted_of_build {config : EngineConfig} {fresh : Engine α}
    (hbuild : Engine.build config = .ok fresh) (groups : List (Group α)) (route : ErrorRoute) :
    (opening (fresh.equipped groups route)).Unstarted ∧ fresh.phase = .waiting ∧
      fresh.intakeOpen = true := by
  obtain ⟨set, hset, hfresh⟩ := exists_of_bind hbuild
  cases hfresh
  exact ⟨⟨rfl, rfl, rfl, AccumulatorSet.exists_shows_ofDescriptors hset, rfl⟩, rfl, rfl⟩

/-- Whatever is called, how often and in whatever order, and however the tasks take turns: the calls are
answered by the starts and stops before them, the accepted events are worked on by the tasks of the one
start, in their order and once, and when the tasks have ended everything is done for good. Runs of the
engine are among these, and a stop that finds it running ends its tasks. -/
theorem lifecycle {config : EngineConfig} {fresh : Engine α}
    (hbuild : Engine.build config = .ok fresh) (groups : List (Group α)) (route : ErrorRoute) :
    let engine := fresh.equipped groups route
    (∀ acts, Answers acts ((opening engine).after acts)) ∧
      (∀ acts, Progress (.ofDescriptors catalogue config.histories) acts
        ((opening engine).after acts)) ∧
      (∀ acts, ((opening engine).after acts).engine.phase = .finished →
        Ended acts ((opening engine).after acts)) ∧
      (∀ calls, ∃ acts, ((opening engine).after acts).engine = engine.afterCalls calls) ∧
      ∀ calls, (engine.afterCalls calls).phase = .running →
        (engine.afterCalls (calls ++ [.stop])).phase = .finished := by
  intro engine
  obtain ⟨horderly, haccounted⟩ := accounted_of_build hbuild groups route
  obtain ⟨hunstarted, hwaiting, hopen⟩ := unstarted_of_build hbuild groups route
  have hanswers := answers_after horderly hunstarted hwaiting hopen
  refine ⟨hanswers, progress_after horderly haccounted hunstarted hwaiting, ?_, ?_, ?_⟩
  · intro acts hfinished
    have hacts := horderly.after acts
    exact
      { stopped := (hanswers acts).awaited_iff.1 (.inr hfinished)
        complete := (haccounted.after horderly acts).complete hacts hfinished
        stays := hacts.stays hfinished }
  · intro calls
    obtain ⟨acts, -, hacts⟩ := (between_of_build hbuild groups route).exists_acts_of_calls calls
    exact ⟨acts, hacts⟩
  · intro calls hrunning
    have hstop : engine.afterCalls (calls ++ [.stop]) = (engine.afterCalls calls).stop := by
      simp [Engine.afterCalls, Engine.call]
    rw [hstop]
    exact Engine.phase_stop hrunning

/-- Two events before the start, a stop before it and a stop after it: what came after the first stop was
refused, both events and the one measurement are done, and later calls change nothing. -/
theorem lifecycle_early_stop :
    let config : EngineConfig := { chartHistory := 2, speedHistory := 2, window := 1 }
    let events : List IngestEvent := [.queueStatus { verified := 1, unverified := 2 }, .blockPopped 5]
    let handOver : List (Act Rat) := [.receive, .post, .fetch, .perform, .count]
    let acts : List (Act Rat) := List.flatten [events.map .submit,
      [.stop, .submit (.blockPopped 6), .ask, .start, .start, .measure 1000], handOver, [.stop, .join],
      handOver, [.leaveIngestion, .measure 2000, .leaveMeasuring, .report, .leaveMeasuring, .fetch,
        .perform, .count, .leaveConsumer, .join]]
    let later : List (Act Rat) := [.start, .submit (.blockPopped 7), .stop, .measure 3000, .report]
    ∃ fresh : Engine Rat, Engine.build config = .ok fresh ∧
      ((opening fresh).after acts).engine.phase = .finished ∧
      ((opening fresh).after acts).logbook.accepted = events ∧
      ((opening fresh).after acts).logbook.performed.length = 3 ∧
      Answers acts ((opening fresh).after acts) ∧ Ended acts ((opening fresh).after acts) ∧
      ((opening fresh).after (acts ++ later)).engine.dashboard =
        ((opening fresh).after acts).engine.dashboard := by
  intro config events handOver acts later
  have hrun : ∀ fresh ∈ (Engine.build config : Except SizeError (Engine Rat)).toOption,
      ((opening fresh).after acts).engine.phase = .finished ∧
      ((opening fresh).after acts).logbook.accepted = events ∧
      ((opening fresh).after acts).logbook.performed.length = 3 := by
    decide +kernel
  obtain ⟨fresh, -, hbuild, -⟩ :=
    Engine.exists_build (α := Rat) (show 0 < config.window by decide) (by decide)
  obtain ⟨hfinished, haccepted, hperformed⟩ := hrun fresh (by rw [hbuild]; rfl)
  have hown : fresh.equipped fresh.groups fresh.route = fresh := rfl
  have hall := lifecycle hbuild fresh.groups fresh.route
  rw [hown] at hall
  obtain ⟨hanswers, -, hended, -⟩ := hall
  have hacts := hended acts hfinished
  have hsame := (hacts.stays later).2.1
  rw [← after_append] at hsame
  exact ⟨fresh, hbuild, hfinished, haccepted, hperformed, hanswers acts, hacts,
    congrArg Consumer.dashboard hsame⟩

end Session

end NodeTelemetry
