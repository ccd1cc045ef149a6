import NodeTelemetry.Proofs.Engine.Accounts

/-!
Settling as a session. What an engine does in one step its tasks do in several: so every run of calls,
flushes and stops among them, is a session in which nothing is in hand between two calls. An engine that
accepts no more events settles completely, whence the stop that waits for its tasks returns.
-/

set_option autoImplicit false

namespace NodeTelemetry

variable {α : Type} [Scalar α]

namespace Engine

/-! ### Settling works everything off -/

/-- How many steps ingestion has to take: two for each event, and one for the job it holds. -/
private def backlog (engine : Engine α) : Nat := 2 * engine.intake.length + engine.posting.toList.length

omit [Scalar α] in
private theorem eq_of_backlog_eq_zero {engine : Engine α} (h : engine.backlog = 0) :
    engine.intake = [] ∧ engine.posting = none := by
  simp only [backlog, Nat.add_eq_zero_iff, Nat.mul_eq_zero, List.length_eq_zero_iff] at h
  simpa using h

private theorem backlog_stepIngestion (engine : Engine α) :
    engine.stepIngestion.backlog ≤ engine.backlog - 1 := by
  cases hposting : engine.posting with
  | some job =>
    simp [stepIngestion, hposting, backlog]
  | none =>
    cases hintake : engine.intake with
    | nil => simp [stepIngestion, hposting, hintake, backlog]
    | cons event later =>
      rw [stepIngestion_of_intake hposting hintake]
      simp only [backlog, hposting, hintake, List.length_cons, Option.toList_none, List.length_nil]
      have hjob : ∀ posting : Option (CommitJob α), posting.toList.length ≤ 1 := by
        intro posting
        cases posting <;> simp
      have := hjob (engine.ingestion.handle engine.groups engine.route event).2.job?
      omega

structure SameOutside (engine next : Engine α) : Prop where
  phase : next.phase = engine.phase
  intakeOpen : next.intakeOpen = engine.intakeOpen
  measuring : next.measuring = engine.measuring
  measured : next.measured = engine.measured

theorem sameOutside_stepIngestion (engine : Engine α) : engine.SameOutside engine.stepIngestion := by
  unfold stepIngestion
  split
  · exact ⟨rfl, rfl, rfl, rfl⟩
  · split
    · exact ⟨rfl, rfl, rfl, rfl⟩
    · exact ⟨rfl, rfl, rfl, rfl⟩

theorem step_of_running {engine : Engine α} (hrunning : engine.phase = .running) (task : Task) :
    engine.step task =
      match task with
      | .ingestion => engine.stepIngestion
      | .measurement now => engine.stepMeasurement now
      | .report => engine.stepReport
      | .rest => engine.stepRest
      | .commit => engine.stepCommit :=
  if_pos hrunning

private theorem run_ingestion {engine : Engine α} (hrunning : engine.phase = .running) {steps : Nat}
    (hsteps : engine.backlog ≤ steps) :
    (engine.run (List.replicate steps .ingestion)).backlog = 0 ∧
      engine.SameOutside (engine.run (List.replicate steps .ingestion)) := by
  induction steps generalizing engine with
  | zero => exact ⟨Nat.le_zero.1 hsteps, ⟨rfl, rfl, rfl, rfl⟩⟩
  | succ steps ih =>
    have hstep : engine.step .ingestion = engine.stepIngestion := step_of_running hrunning .ingestion
    have hsame := engine.sameOutside_stepIngestion
    have hless := engine.backlog_stepIngestion
    have hrunning' : engine.stepIngestion.phase = .running := hsame.phase.trans hrunning
    obtain ⟨hdrained, hrest⟩ := ih hrunning' (by omega)
    rw [List.replicate_succ, run, List.foldl_cons, hstep]
    refine ⟨hdrained, ?_⟩
    exact
      { phase := hrest.phase.trans hsame.phase
        intakeOpen := hrest.intakeOpen.trans hsame.intakeOpen
        measuring := hrest.measuring.trans hsame.measuring
        measured := hrest.measured.trans hsame.measured }

private theorem run_commit {engine : Engine α} (hrunning : engine.phase = .running) :
    engine.run (List.replicate engine.commits.length .commit) =
      { engine with commits := [], consumer := engine.consumer.run engine.commits } := by
  generalize hcommits : engine.commits = jobs
  induction jobs generalizing engine with
  | nil =>
    obtain ⟨⟩ := engine
    cases hcommits
    rfl
  | cons job jobs ih =>
    have hstep : engine.step .commit =
        { engine with commits := jobs, consumer := engine.consumer.step job } := by
      rw [step_of_running hrunning, stepCommit, hcommits]
    rw [List.length_cons, List.replicate_succ, run, List.foldl_cons, hstep]
    let next : Engine α := { engine with commits := jobs, consumer := engine.consumer.step job }
    have hnext : next.phase = .running := hrunning
    exact ih hnext rfl

private theorem exists_run_report_rest {engine : Engine α} (hrunning : engine.phase = .running) :
    ∃ jobs, engine.run [.report, .rest] =
      { engine with
        commits := jobs
        measured := none
        measuring := engine.measuring && engine.intakeOpen } := by
  obtain ⟨jobs, hreport⟩ :
      ∃ jobs, engine.stepReport = { engine with commits := jobs, measured := none } := by
    cases hmeasured : engine.measured with
    | some job =>
      refine ⟨engine.commits ++ [job], ?_⟩
      rw [stepReport, hmeasured]
    | none =>
      have hself : engine.stepReport = engine := by
        rw [stepReport, hmeasured]
      refine ⟨engine.commits, ?_⟩
      rw [hself, ← hmeasured]
  refine ⟨jobs, ?_⟩
  have hfirst : engine.step .report = { engine with commits := jobs, measured := none } := by
    rw [step_of_running hrunning, hreport]
  let reported : Engine α := { engine with commits := jobs, measured := none }
  have hreported : reported.phase = .running := hrunning
  have hrest : reported.step .rest = reported.stepRest := step_of_running hreported .rest
  rw [run, List.foldl_cons, List.foldl_cons, List.foldl_nil, hfirst, hrest]
  cases hopen : engine.intakeOpen <;> simp [stepRest, reported, hopen]

theorem exists_settle_eq {engine : Engine α} (hrunning : engine.phase = .running) :
    ∃ (ingested : Engine α) (consumer : Consumer α), ingested.intake = [] ∧ ingested.posting = none ∧
      engine.SameOutside ingested ∧
      engine.settle = { ingested with
        commits := []
        consumer
        measured := none
        measuring := engine.measuring && engine.intakeOpen } := by
  have hsteps : engine.backlog ≤ 2 * engine.intake.length + 1 := by
    unfold backlog
    cases engine.posting <;> simp
  obtain ⟨hbacklog, hsame⟩ := run_ingestion hrunning hsteps
  unfold settle
  generalize engine.run (List.replicate (2 * engine.intake.length + 1) .ingestion) = ingested
    at hbacklog hsame ⊢
  obtain ⟨hintake, hposting⟩ := eq_of_backlog_eq_zero hbacklog
  have hingested : ingested.phase = .running := hsame.phase.trans hrunning
  obtain ⟨jobs, hreported⟩ := exists_run_report_rest hingested
  have hrunning' : (ingested.run [.report, .rest]).phase = .running := by
    rw [hreported]
    exact hingested
  refine ⟨ingested, ingested.consumer.run jobs, hintake, hposting, hsame, ?_⟩
  have hrun := run_commit hrunning'
  simp only
  rw [hrun, hreported, ← hsame.measuring, ← hsame.intakeOpen]

structure Drained (engine : Engine α) : Prop where
  running : engine.phase = .running
  closed : engine.intakeOpen = false
  intake : engine.intake = []
  posting : engine.posting = none
  measuring : engine.measuring = false
  measured : engine.measured = none
  commits : engine.commits = []

theorem drained_settle {engine : Engine α} (hrunning : engine.phase = .running)
    (hclosed : engine.intakeOpen = false) : engine.settle.Drained := by
  obtain ⟨ingested, consumer, hintake, hposting, hsame, hsettle⟩ := exists_settle_eq hrunning
  have hmeasuring : (engine.measuring && engine.intakeOpen) = false := by
    rw [hclosed, Bool.and_false]
  rw [hsettle]
  exact ⟨hsame.phase.trans hrunning, hsame.intakeOpen.trans hclosed, hintake, hposting, hmeasuring,
    rfl, rfl⟩

private theorem phase_step (engine : Engine α) (task : Task) :
    (engine.step task).phase = engine.phase := by
  have hstep := engine.becomes_step task
  generalize engine.step task = next at hstep
  cases hstep <;> rfl

theorem phase_run (engine : Engine α) (schedule : List Task) :
    (engine.run schedule).phase = engine.phase := by
  induction schedule generalizing engine with
  | nil => rfl
  | cons task schedule ih => exact (ih (engine.step task)).trans (engine.phase_step task)

private theorem phase_settle (engine : Engine α) : engine.settle.phase = engine.phase := by
  simp only [settle, phase_run]

private theorem intakeOpen_step (engine : Engine α) (task : Task) :
    (engine.step task).intakeOpen = engine.intakeOpen := by
  have hstep := engine.becomes_step task
  generalize engine.step task = next at hstep
  cases hstep <;> rfl

theorem intakeOpen_run (engine : Engine α) (schedule : List Task) :
    (engine.run schedule).intakeOpen = engine.intakeOpen := by
  induction schedule generalizing engine with
  | nil => rfl
  | cons task schedule ih => exact (ih (engine.step task)).trans (engine.intakeOpen_step task)

/-! ### Flushing -/

def asked (engine : Engine α) : Engine α :=
  { engine with
    intake := engine.intake ++ [.flush engine.tickets]
    tickets := engine.tickets + 1 }

theorem flush_of_open {engine : Engine α} (hopen : engine.intakeOpen = true) :
    engine.flush = (engine.asked.settle,
      if engine.asked.settle.consumer.confirmed.contains engine.tickets then .done else .pending) := by
  rw [flush, submit, if_pos hopen, asked]

theorem flush_of_closed {engine : Engine α} (hclosed : engine.intakeOpen = false) :
    engine.flush = (engine, .refused) := by
  rw [flush, submit, hclosed]
  rfl

private theorem phase_flush (engine : Engine α) : engine.flush.1.phase = engine.phase := by
  cases hopen : engine.intakeOpen with
  | true =>
    have hasked : engine.asked.phase = engine.phase := rfl
    rw [flush_of_open hopen, phase_settle, hasked]
  | false => rw [flush_of_closed hopen]

/-- A ticket that was put behind the events is with ingestion, with the consumer, or confirmed. -/
def Holds (engine : Engine α) (ticket : Nat) : Prop :=
  .flush ticket ∈ engine.intake ∨ .barrier ticket ∈ engine.waiting ∨ ticket ∈ engine.consumer.confirmed

private theorem Becomes.holds {engine next : Engine α} {move : Move} (h : engine.Becomes move next)
    {ticket : Nat} (hholds : engine.Holds ticket) : next.Holds ticket := by
  cases h with
  | submit event => exact hholds.imp_left (List.mem_append_left _)
  | ask => exact hholds.imp_left (List.mem_append_left _)
  | post _ hposting =>
    refine hholds.imp_right (Or.imp_left fun hjob => ?_)
    simpa [waiting, hposting] using hjob
  | @take event later _ hposting hintake =>
    rcases hholds with hevent | hjob | hconfirmed
    · rw [hintake] at hevent
      rcases List.mem_cons.1 hevent with rfl | hevent
      · exact .inr (.inl (List.mem_append_right _ (List.mem_singleton_self _)))
      · exact .inl hevent
    · rw [waiting_of_none hposting] at hjob
      exact .inr (.inl (List.mem_append_left _ hjob))
    · exact .inr (.inr hconfirmed)
  | report =>
    refine hholds.imp_right (Or.imp_left fun hjob => ?_)
    rcases List.mem_append.1 hjob with hjob | hjob
    · exact List.mem_append_left _ (List.mem_append_left _ hjob)
    · exact List.mem_append_right _ hjob
  | @commit job later _ hcommits =>
    rcases hholds with hevent | hjob | hconfirmed
    · exact .inl hevent
    · rw [waiting, hcommits] at hjob
      rcases List.mem_cons.1 hjob with rfl | hjob
      · exact .inr (.inr (List.mem_append_right _ (List.mem_singleton_self _)))
      · exact .inr (.inl hjob)
    · refine .inr (.inr ?_)
      cases job with
      | apply batch => exact hconfirmed
      | truncate height => exact hconfirmed
      | barrier other => exact List.mem_append_left _ hconfirmed
  | _ => exact hholds

private theorem holds_run {engine : Engine α} {ticket : Nat} (h : engine.Holds ticket)
    (schedule : List Task) : (engine.run schedule).Holds ticket := by
  induction schedule generalizing engine with
  | nil => exact h
  | cons task schedule ih => exact ih ((engine.becomes_step task).holds h)

theorem flush_done {engine : Engine α} (hrunning : engine.phase = .running)
    (hopen : engine.intakeOpen = true) : engine.flush.2 = .done := by
  have hasked : engine.asked.Holds engine.tickets :=
    .inl (List.mem_append_right _ (List.mem_singleton_self _))
  have hsettled : engine.asked.settle.Holds engine.tickets := by
    simp only [settle]
    exact holds_run (holds_run (holds_run hasked _) _) _
  have hasking : engine.asked.phase = .running := hrunning
  obtain ⟨ingested, consumer, hintake, hposting, -, hsettle⟩ := exists_settle_eq hasking
  have hconfirmed : engine.tickets ∈ engine.asked.settle.consumer.confirmed := by
    -- nothing waits any more, so there is one place left where the ticket can be
    rcases hsettled with hevent | hjob | hconfirmed
    · rw [hsettle] at hevent
      cases hintake ▸ hevent
    · rw [hsettle, waiting] at hjob
      cases hposting ▸ hjob
    · exact hconfirmed
  rw [flush_of_open hopen, if_pos (List.contains_iff_mem.2 hconfirmed)]

theorem phase_stop {engine : Engine α} (hrunning : engine.phase = .running) :
    engine.stop.phase = .finished := by
  have hstop : engine.stop =
      { ({ engine with intakeOpen := false } : Engine α).settle with phase := .finished } :=
    if_pos hrunning
  rw [hstop]

/-! ### Calls -/

/-- What a caller can ask of an engine, and the steps that its tasks take by themselves. -/
inductive Call where
  | submit (event : IngestEvent)
  | flush
  | setWindow (window : Nat)
  | setVolume (counters : VolumeCounters)
  | start
  | stop
  | step (task : Task)
  deriving Repr, DecidableEq

def call (engine : Engine α) : Call → Engine α
  | .submit event => (engine.submit event).1
  | .flush => engine.flush.1
  | .setWindow window =>
    match engine.setWindow window with
    | .ok resized => resized
    | .error _ => engine
  | .setVolume counters => engine.setVolume counters
  | .start =>
    match engine.start with
    | .ok started => started
    | .error _ => engine
  | .stop => engine.stop
  | .step task => engine.step task

def afterCalls (engine : Engine α) (calls : List Call) : Engine α := calls.foldl call engine

theorem afterCalls_append (engine : Engine α) (first later : List Call) :
    engine.afterCalls (first ++ later) = (engine.afterCalls first).afterCalls later :=
  List.foldl_append

theorem afterCalls_steps (engine : Engine α) (schedule : List Task) :
    engine.afterCalls (schedule.map .step) = engine.run schedule :=
  List.foldl_map

end Engine

namespace Session

/-- The work that the groups do on a sample if nothing comes in between. -/
private def workOfGroups (engine : Engine α) (block : BlockSample) (receivedAt : Int64) : Work α where
  completions := (Group.runAll block receivedAt 0 engine.groups engine.ingestion.accumulators).1
  accumulators := (Group.runAll block receivedAt 0 engine.groups engine.ingestion.accumulators).2
  groupRuns := engine.groups.foldl (fun runs group => runs.increment group.kind.name)
    engine.ingestion.figures.groupRuns
  errors := ((Group.runAll block receivedAt 0 engine.groups
    engine.ingestion.accumulators).1.filterMap Completion.error?).foldl
      (ErrorLog.note engine.route) engine.ingestion.errors

/-- A session between two calls: nothing is in hand, and the tasks of a running engine are there. -/
structure Resting (session : Session α) : Prop where
  computing : session.computing = none
  handling : session.handling = .idle
  alive : session.engine.phase = .running → session.ingesting = true ∧ session.consuming = true

/-- By some acts the session gets to an engine; only the logbook tells that there were any. -/
def Attains (session : Session α) (engine : Engine α) : Prop :=
  ∃ acts, session.after acts = { session with engine, logbook := (session.after acts).logbook }

variable {session : Session α} {engine : Engine α}

private theorem attains_self (session : Session α) : session.Attains session.engine :=
  ⟨[], rfl⟩

private theorem Attains.trans {later : Engine α} (h : session.Attains engine)
    (hlater : ∀ logbook, { session with engine, logbook }.Attains later) :
    session.Attains later := by
  obtain ⟨acts, hacts⟩ := h
  obtain ⟨rest, hrest⟩ := hlater (session.after acts).logbook
  rw [← hacts] at hrest
  refine ⟨acts ++ rest, ?_⟩
  rw [after_append, hrest, hacts]

private theorem attains_stepIngestion (h : session.Resting)
    (hrunning : session.engine.phase = .running) :
    session.Attains session.engine.stepIngestion := by
  obtain ⟨hingesting, hconsuming⟩ := h.alive hrunning
  have hcomputing := h.computing
  cases hposting : session.engine.posting with
  | some job =>
    refine ⟨[.post], ?_⟩
    simp [after, make, work, post, hrunning, hposting, hconsuming]
  | none =>
    cases hintake : session.engine.intake with
    | nil =>
      have hstep : session.engine.stepIngestion = session.engine := by
        simp [Engine.stepIngestion, hposting, hintake]
      rw [hstep]
      exact attains_self session
    | cons event later =>
      rcases event with (_ | ⟨block, receivedAt⟩) | status | popped | ticket
      case sample.some =>
        refine ⟨[.receive, .compute (workOfGroups session.engine block receivedAt)], ?_⟩
        rw [Engine.stepIngestion_of_intake hposting hintake]
        simp [after, make, work, receive, compute, hrunning, hposting, hcomputing, hingesting, hintake]
        exact ⟨rfl, rfl⟩
      -- everything but a sample is handled in the step that takes it
      all_goals
        refine ⟨[.receive], ?_⟩
        simp [after, make, work, receive, hrunning, hposting, hcomputing, hingesting, hintake]

private theorem attains_step (h : session.Resting) (task : Task) :
    session.Attains (session.engine.step task) := by
  by_cases hrunning : session.engine.phase = .running
  · obtain ⟨hingesting, hconsuming⟩ := h.alive hrunning
    rw [Engine.step_of_running hrunning]
    cases task with
    | ingestion => exact attains_stepIngestion h hrunning
    | measurement now =>
      refine ⟨[.measure now], ?_⟩
      simp only [after, List.foldl_cons, List.foldl_nil, make, if_pos hrunning, work, measure]
    | report =>
      refine ⟨[.report], ?_⟩
      simp [after, make, work, report, hrunning, hconsuming]
    | rest =>
      refine ⟨[.leaveMeasuring], ?_⟩
      simp [after, make, work, hrunning]
    | commit =>
      cases hcommits : session.engine.commits with
      | nil =>
        simp only [Engine.stepCommit, hcommits]
        exact attains_self session
      | cons job later =>
        refine ⟨[.fetch, .perform, .count], ?_⟩
        simp [after, make, work, fetch, perform, count, hrunning, hconsuming, h.handling, hcommits,
          Engine.stepCommit]
  · rw [Engine.step.eq_def, if_neg hrunning]
    exact attains_self session

omit [Scalar α] in
private theorem Resting.of_phase (h : session.Resting)
    (hphase : engine.phase = session.engine.phase)
    (logbook : Logbook α) : ({ session with engine, logbook } : Session α).Resting where
  computing := h.computing
  handling := h.handling
  alive := fun hrunning => h.alive (hphase.symm.trans hrunning)

private theorem attains_run (h : session.Resting) (schedule : List Task) :
    session.Attains (session.engine.run schedule) := by
  induction schedule generalizing session with
  | nil => exact attains_self session
  | cons task schedule ih =>
    refine (attains_step h task).trans fun logbook => ?_
    exact ih (h.of_phase (session.engine.phase_step task) logbook)

private theorem attains_settle (h : session.Resting) : session.Attains session.engine.settle := by
  obtain ⟨schedule, hsettle⟩ := session.engine.exists_settle_eq_after
  rw [hsettle, ← Engine.run_eq_after]
  exact attains_run h schedule

omit [Scalar α] in
theorem Orderly.hasReceiver (h : session.Orderly) (hopen : session.engine.intakeOpen = true) :
    session.hasReceiver = true := by
  by_cases hwaiting : session.engine.phase = .waiting
  · simp [Session.hasReceiver, hwaiting]
  · have hingesting : session.ingesting = true := by
      by_contra hended
      have hclosed := (h.drained hwaiting (Bool.not_eq_true _ ▸ hended)).1
      cases hopen.symm.trans hclosed
    simp [Session.hasReceiver, hingesting]

/-- What a caller finds after a call: nothing in hand, and no stop that waits. -/
structure Between (session : Session α) : Prop where
  orderly : session.Orderly
  resting : session.Resting
  joining : session.joining = false

private theorem exists_joined (h : session.Between) (hrunning : session.engine.phase = .running) :
    ∃ acts, (session.after acts).Between ∧ (session.after acts).engine = session.engine.stop := by
  obtain ⟨hingesting, hconsuming⟩ := h.resting.alive hrunning
  have hjoinable : session.joinable = true := by
    rw [h.orderly.awaited hrunning, h.joining]
    rfl
  let closed : Engine α := { session.engine with intakeOpen := false }
  let waiting : Session α :=
    { session with engine := closed, joining := session.joining || session.joinable, joinable := false }
  have hwaiting : waiting.Resting := ⟨h.resting.computing, h.resting.handling, h.resting.alive⟩
  obtain ⟨acts, hacts⟩ := attains_settle hwaiting
  have hdrained : closed.settle.Drained := Engine.drained_settle hrunning rfl
  let leaving : List (Act α) := [.leaveIngestion, .leaveConsumer, .join]
  have hleft : waiting.after (acts ++ leaving) =
      { waiting with
        engine := { closed.settle with phase := .finished }
        ingesting := false
        consuming := false
        joining := false
        logbook := (waiting.after acts).logbook } := by
    rw [after_append, hacts]
    simp [leaving, after, make, work, leaveIngestion, leaveConsumer, join, waiting, hdrained.running,
      hdrained.closed, hdrained.intake, hdrained.posting, hdrained.measuring, hdrained.commits,
      h.resting.computing, h.resting.handling, hjoinable]
  have hall : session.after (.stop :: (acts ++ leaving)) = waiting.after (acts ++ leaving) := rfl
  have horderly := h.orderly.after (.stop :: (acts ++ leaving))
  have hstop : session.engine.stop = { closed.settle with phase := .finished } := if_pos hrunning
  refine ⟨.stop :: (acts ++ leaving), ⟨horderly, ?_, ?_⟩, ?_⟩
  · rw [hall, hleft]
    exact ⟨h.resting.computing, h.resting.handling, fun hrunning => by cases hrunning⟩
  · rw [hall, hleft]
  · rw [hall, hleft, hstop]

private theorem Between.of_attains (h : session.Between) (hattains : session.Attains engine)
    (hphase : engine.phase = session.engine.phase) :
    ∃ acts, (session.after acts).Between ∧ (session.after acts).engine = engine := by
  obtain ⟨acts, hacts⟩ := hattains
  have horderly := h.orderly.after acts
  refine ⟨acts, ?_, ?_⟩
  · rw [hacts] at horderly ⊢
    exact ⟨horderly, h.resting.of_phase hphase _, h.joining⟩
  · rw [hacts]

private theorem attains_flush (h : session.Between) : session.Attains session.engine.flush.1 := by
  by_cases hopen : session.engine.intakeOpen = true
  · have hask : session.Attains session.engine.asked := by
      refine ⟨[.ask], ?_⟩
      simp [after, make, ask, submit, Engine.submit, hopen, h.orderly.hasReceiver hopen, Engine.asked]
    have hflush : session.engine.flush.1 = session.engine.asked.settle := by
      rw [Engine.flush_of_open hopen]
    have hphase : session.engine.asked.phase = session.engine.phase := rfl
    rw [hflush]
    exact hask.trans fun logbook => attains_settle (h.resting.of_phase hphase logbook)
  · rw [Engine.flush_of_closed (Bool.not_eq_true _ ▸ hopen)]
    exact attains_self session

private theorem Between.exists_acts (h : session.Between) (call : Engine.Call) :
    ∃ acts, (session.after acts).Between ∧
      (session.after acts).engine = session.engine.call call := by
  cases call with
  | submit event =>
    by_cases hopen : session.engine.intakeOpen = true
    · refine h.of_attains ⟨[.submit event], ?_⟩ ?_
      · simp [after, make, submit, Engine.call, hopen, h.orderly.hasReceiver hopen]
      · simp [Engine.call, Engine.submit, hopen]
    · refine h.of_attains ?_ ?_
      · simp only [Engine.call, Engine.submit, if_neg hopen]
        exact attains_self session
      · simp [Engine.call, Engine.submit, hopen]
  | flush => exact h.of_attains (attains_flush h) session.engine.phase_flush
  | setWindow window =>
    refine h.of_attains ⟨[.setWindow window], ?_⟩ ?_
    · simp only [after, List.foldl_cons, List.foldl_nil, make, Engine.call]
      cases session.engine.setWindow window <;> rfl
    · simp only [Engine.call, Engine.setWindow]
      cases session.engine.accumulators.setWindow window <;> rfl
  | setVolume counters => exact h.of_attains ⟨[.setVolume counters], rfl⟩ rfl
  | start =>
    by_cases hwaiting : session.engine.phase = .waiting
    · have hstart : session.make .start =
          { session with
            engine := { session.engine with phase := .running, measuring := true }
            ingesting := true
            consuming := true
            joinable := true } := by
        simp [make, start, Engine.start, hwaiting, bind, Except.bind, pure, Except.pure]
      have horderly := h.orderly.after [.start]
      have hall : session.after [.start] = session.make .start := rfl
      refine ⟨[.start], ⟨horderly, ?_, ?_⟩, ?_⟩
      · rw [hall, hstart]
        exact ⟨h.resting.computing, h.resting.handling, fun _ => ⟨rfl, rfl⟩⟩
      · rw [hall, hstart]
        exact h.joining
      · rw [hall, hstart]
        simp [Engine.call, Engine.start, hwaiting]
    · have hrefused : session.engine.call .start = session.engine := by
        simp [Engine.call, Engine.start, hwaiting]
      rw [hrefused]
      exact h.of_attains (attains_self session) rfl
  | stop =>
    by_cases hrunning : session.engine.phase = .running
    · exact exists_joined h hrunning
    · have hjoinable : session.joinable = false := by
        cases hphase : session.engine.phase with
        | waiting => exact (h.orderly.unstarted hphase).2.2.2.1
        | running => exact absurd hphase hrunning
        | finished => exact (h.orderly.ended hphase).2
      have hstop : session.engine.stop = { session.engine with intakeOpen := false } :=
        if_neg hrunning
      refine ⟨[.stop], ⟨h.orderly.after [.stop], ?_, ?_⟩, ?_⟩
      · exact ⟨h.resting.computing, h.resting.handling, h.resting.alive⟩
      · simp [after, make, stop, h.joining, hjoinable]
      · exact hstop.symm
  | step task => exact h.of_attains (attains_step h.resting task) (session.engine.phase_step task)

theorem between_of_build {config : EngineConfig} {fresh : Engine α}
    (hbuild : Engine.build config = .ok fresh) (groups : List (Group α)) (route : ErrorRoute) :
    (opening (fresh.equipped groups route)).Between := by
  refine ⟨(accounted_of_build hbuild groups route).1, ?_, rfl⟩
  obtain ⟨set, -, hfresh⟩ := exists_of_bind hbuild
  cases hfresh
  exact ⟨rfl, rfl, fun hrunning => by cases hrunning⟩

theorem Between.exists_acts_of_calls (h : session.Between) (calls : List Engine.Call) :
    ∃ acts, (session.after acts).Between ∧
      (session.after acts).engine = session.engine.afterCalls calls := by
  induction calls generalizing session with
  | nil => exact ⟨[], h, rfl⟩
  | cons call calls ih =>
    obtain ⟨first, hfirst, hcall⟩ := h.exists_acts call
    obtain ⟨rest, hrest, hcalls⟩ := ih hfirst
    refine ⟨first ++ rest, ?_, ?_⟩
    · rw [after_append]
      exact hrest
    · rw [after_append, hcalls, hcall]
      rfl

end Session

end NodeTelemetry
