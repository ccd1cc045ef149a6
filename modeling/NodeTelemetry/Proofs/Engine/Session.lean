import NodeTelemetry.Proofs.Engine.Order

/-!
Sessions: an engine in the finest steps that its tasks take. Other tasks may go on between any two of
them: while the groups work on a sample, and while a job is on display but not yet counted. The tasks
end one by one, and a stop waits for them. What the groups make of a sample is left open, so that it may
have come about in any way.
-/

set_option autoImplicit false

namespace NodeTelemetry

/-- What the groups leave behind when all have worked on a sample: the ends of their work in any order,
and the state that ingestion goes on with. -/
structure Work (α : Type) where
  completions : List (Completion α)
  accumulators : AccumulatorSet α
  groupRuns : NameMap Nat
  errors : ErrorLog

inductive Handling (α : Type) where
  | idle
  | taken (job : CommitJob α)
  /-- The dashboard has changed, the figures have not; they are to become the given ones. -/
  | shown (job : CommitJob α) (figures : CommitFigures)

/-- What has happened so far, oldest first. -/
structure Logbook (α : Type) where
  accepted : List IngestEvent := []
  /-- The events that ingestion has taken. -/
  received : List IngestEvent := []
  /-- The jobs that came of measurements. -/
  measured : List (CommitJob α) := []
  /-- The jobs that have changed the dashboard. -/
  performed : List (CommitJob α) := []

structure Session (α : Type) where
  engine : Engine α
  /-- The sample that the groups work on, and its time of arrival. -/
  computing : Option (BlockSample × Int64)
  handling : Handling α
  /-- Whether ingestion, and whether the consumer, is at work; for measuring the engine knows. -/
  ingesting : Bool
  consuming : Bool
  /-- Whether the tasks may still be waited for, and whether a stop waits for them. -/
  joinable : Bool
  joining : Bool
  logbook : Logbook α

/-- A call of the engine, or a step of a task. -/
inductive Act (α : Type) where
  | start
  | stop
  | submit (event : IngestEvent)
  /-- Asks for a flush. -/
  | ask
  | setWindow (window : Nat)
  | setVolume (counters : VolumeCounters)
  /-- Ingestion takes an event. -/
  | receive
  | compute (work : Work α)
  | post
  | leaveIngestion
  | measure (now : Int64)
  | report
  | leaveMeasuring
  /-- The consumer takes a job, changes the dashboard by it, and counts it. -/
  | fetch
  | perform
  | count
  | leaveConsumer
  /-- The stop that waited returns. -/
  | join

def Act.governs {α : Type} : Act α → Bool
  | .start | .stop => true
  | _ => false

namespace Session

variable {α : Type} [Scalar α]

def opening (engine : Engine α) : Session α :=
  { engine
    computing := none
    handling := .idle
    ingesting := false
    consuming := false
    joinable := false
    joining := false
    logbook := {} }

/-! ### Calls -/

def start (session : Session α) : Except StartError (Session α) := do
  let engine ← session.engine.start
  return { session with engine, ingesting := true, consuming := true, joinable := true }

/-- Accepts no more events. The first stop after the start waits for the tasks. -/
def stop (session : Session α) : Session α :=
  { session with
    engine := { session.engine with intakeOpen := false }
    joining := session.joining || session.joinable
    joinable := false }

/-- Whether someone will take the events, now or once the tasks are started. -/
def hasReceiver (session : Session α) : Bool :=
  session.engine.phase = .waiting || session.ingesting

def submit (session : Session α) (event : IngestEvent) : Session α × Bool :=
  if session.engine.intakeOpen && session.hasReceiver then
    ({ session with
      engine := (session.engine.submit event).1
      logbook := { session.logbook with accepted := session.logbook.accepted ++ [event] } }, true)
  else (session, false)

/-- Asks for a flush, with a ticket of its own. The flag tells whether it was accepted. -/
def ask (session : Session α) : Session α × Bool :=
  let ticket := session.engine.tickets
  match session.submit (.flush ticket) with
  | (asked, true) => ({ asked with engine := { asked.engine with tickets := ticket + 1 } }, true)
  | (_, false) => (session, false)

/-! ### Ingestion -/

/-- Ingestion takes the oldest event. A sample is counted and goes to the groups. -/
def receive (session : Session α) : Session α :=
  if session.ingesting && session.computing.isNone && session.engine.posting.isNone then
    match session.engine.intake with
    | [] => session
    | event :: later =>
      let engine := session.engine
      let received := session.logbook.received ++ [event]
      match event with
      | .sample (some taken) =>
        let figures :=
          { engine.ingestion.figures with samplesReceived := engine.ingestion.figures.samplesReceived + 1 }
        { session with
          engine := { engine with intake := later, ingestion := { engine.ingestion with figures } }
          computing := some taken
          logbook := { session.logbook with received } }
      | _ =>
        { session with engine := engine.stepIngestion, logbook := { session.logbook with received } }
  else session

def compute (session : Session α) (work : Work α) : Session α :=
  match session.computing with
  | none => session
  | some (block, _) =>
    let engine := session.engine
    { session with
      engine :=
        { engine with
          ingestion :=
            { accumulators := work.accumulators
              figures := { engine.ingestion.figures with groupRuns := work.groupRuns }
              errors := work.errors }
          posting :=
            some (.apply (.ofCompletions block.height engine.groups.length work.completions)) }
      computing := none }

/-- Whether ingestion goes on though the queue has refused the job. -/
def goesOn : CommitJob α → Bool
  | .apply _ | .barrier _ => false
  | .truncate _ => true

def post (session : Session α) : Session α :=
  match session.engine.posting with
  | none => session
  | some job =>
    if session.consuming then { session with engine := session.engine.stepIngestion }
    else
      { session with
        engine := { session.engine with posting := none }
        ingesting := session.ingesting && goesOn job }

/-- Ingestion ends, once events are no longer accepted and all are worked off. -/
def leaveIngestion (session : Session α) : Session α :=
  if session.engine.intakeOpen || !session.engine.intake.isEmpty || session.computing.isSome ||
      session.engine.posting.isSome then session
  else { session with ingesting := false }

/-! ### Measuring -/

def measure (session : Session α) (now : Int64) : Session α :=
  let engine := session.engine.stepMeasurement now
  let fresh := if session.engine.measured.isNone then engine.measured.toList else []
  { session with
    engine
    logbook := { session.logbook with measured := session.logbook.measured ++ fresh } }

def report (session : Session α) : Session α :=
  if session.consuming || session.engine.measured.isNone then
    { session with engine := session.engine.stepReport }
  else { session with engine := { session.engine with measured := none, measuring := false } }

/-! ### The consumer -/

def fetch (session : Session α) : Session α :=
  match session.consuming, session.handling, session.engine.commits with
  | true, .idle, job :: later =>
    { session with engine := { session.engine with commits := later }, handling := .taken job }
  | _, _, _ => session

/-- The dashboard and the display change, the figures are left for later. -/
def perform (session : Session α) : Session α :=
  match session.handling with
  | .taken job =>
    let before := session.engine.consumer
    let after := before.step job
    { session with
      engine := { session.engine with consumer := { after with figures := before.figures } }
      handling := .shown job after.figures
      logbook := { session.logbook with performed := session.logbook.performed ++ [job] } }
  | .idle | .shown _ _ => session

def count (session : Session α) : Session α :=
  match session.handling with
  | .shown _ figures =>
    { session with
      engine := { session.engine with consumer := { session.engine.consumer with figures } }
      handling := .idle }
  | .idle | .taken _ => session

/-- The consumer ends, once nobody is left to post and all jobs are done. -/
def leaveConsumer (session : Session α) : Session α :=
  match session.handling, session.engine.commits with
  | .idle, [] =>
    if session.ingesting || session.engine.measuring then session
    else { session with consuming := false }
  | _, _ => session

def join (session : Session α) : Session α :=
  if session.joining && !session.ingesting && !session.engine.measuring && !session.consuming then
    { session with engine := { session.engine with phase := .finished }, joining := false }
  else session

/-! ### Runs -/

def work (session : Session α) : Act α → Session α
  | .receive => session.receive
  | .compute work => session.compute work
  | .post => session.post
  | .leaveIngestion => session.leaveIngestion
  | .measure now => session.measure now
  | .report => session.report
  | .leaveMeasuring => { session with engine := session.engine.stepRest }
  | .fetch => session.fetch
  | .perform => session.perform
  | .count => session.count
  | .leaveConsumer => session.leaveConsumer
  | .join => session.join
  | .start | .stop | .submit _ | .ask | .setWindow _ | .setVolume _ => session

/-- The session after an act. What is refused, or not possible yet, changes nothing; tasks work only
while the engine runs. -/
def make (session : Session α) : Act α → Session α
  | .start =>
    match session.start with
    | .ok started => started
    | .error _ => session
  | .stop => session.stop
  | .submit event => (session.submit event).1
  | .ask => session.ask.1
  | .setWindow window =>
    match session.engine.setWindow window with
    | .ok engine => { session with engine }
    | .error _ => session
  | .setVolume counters => { session with engine := session.engine.setVolume counters }
  | act => if session.engine.phase = .running then session.work act else session

def after (session : Session α) (acts : List (Act α)) : Session α := acts.foldl make session

theorem after_append (session : Session α) (first later : List (Act α)) :
    session.after (first ++ later) = (session.after first).after later :=
  List.foldl_append

theorem after_singleton (session : Session α) (act : Act α) : session.after [act] = session.make act :=
  rfl

/-! ### What an act can come to -/

/-- What an act can make of a session. The steps of tasks take a running engine. -/
inductive Becomes (session : Session α) : Act α → Session α → Prop where
  | idle {act : Act α} (hstart : act = .start → session.engine.phase ≠ .waiting)
      (hstop : act ≠ .stop) : Becomes session act session
  | start (hwaiting : session.engine.phase = .waiting) :
      Becomes session .start
        { session with
          engine := { session.engine with phase := .running, measuring := true }
          ingesting := true
          consuming := true
          joinable := true }
  | stop : Becomes session .stop
      { session with
        engine := { session.engine with intakeOpen := false }
        joining := session.joining || session.joinable
        joinable := false }
  | submit (event : IngestEvent) (hopen : session.engine.intakeOpen = true)
      (hreceiver : session.hasReceiver = true) :
      Becomes session (.submit event)
        { session with
          engine := { session.engine with intake := session.engine.intake ++ [event] }
          logbook := { session.logbook with accepted := session.logbook.accepted ++ [event] } }
  | ask (hopen : session.engine.intakeOpen = true) (hreceiver : session.hasReceiver = true) :
      Becomes session .ask
        { session with
          engine :=
            { session.engine with
              intake := session.engine.intake ++ [.flush session.engine.tickets]
              tickets := session.engine.tickets + 1 }
          logbook :=
            { session.logbook with
              accepted := session.logbook.accepted ++ [.flush session.engine.tickets] } }
  | setWindow {window : Nat} {set : AccumulatorSet α}
      (hset : session.engine.accumulators.setWindow window = .ok set) :
      Becomes session (.setWindow window)
        { session with
          engine :=
            { session.engine with
              ingestion := { session.engine.ingestion with accumulators := set }
              windowFigure := window } }
  | setVolume (counters : VolumeCounters) :
      Becomes session (.setVolume counters)
        { session with engine := { session.engine with volume := counters } }
  | take {taken : BlockSample × Int64} {later : List IngestEvent}
      (hrunning : session.engine.phase = .running) (hingesting : session.ingesting = true)
      (hcomputing : session.computing = none) (hposting : session.engine.posting = none)
      (hintake : session.engine.intake = .sample (some taken) :: later) :
      Becomes session .receive
        { session with
          engine :=
            { session.engine with
              intake := later
              ingestion :=
                { session.engine.ingestion with
                  figures :=
                    { session.engine.ingestion.figures with
                      samplesReceived := session.engine.ingestion.figures.samplesReceived + 1 } } }
          computing := some taken
          logbook :=
            { session.logbook with
              received := session.logbook.received ++ [.sample (some taken)] } }
  | handle {event : IngestEvent} {later : List IngestEvent}
      (hrunning : session.engine.phase = .running) (hingesting : session.ingesting = true)
      (hcomputing : session.computing = none) (hposting : session.engine.posting = none)
      (hintake : session.engine.intake = event :: later)
      (hevent : ∀ taken, event ≠ .sample (some taken)) :
      Becomes session .receive
        { session with
          engine :=
            { session.engine with
              intake := later
              ingestion := (session.engine.ingestion.handle session.engine.groups
                session.engine.route event).1
              posting := (session.engine.ingestion.handle session.engine.groups
                session.engine.route event).2.job? }
          logbook := { session.logbook with received := session.logbook.received ++ [event] } }
  | compute {block : BlockSample} {receivedAt : Int64} (work : Work α)
      (hrunning : session.engine.phase = .running)
      (hcomputing : session.computing = some (block, receivedAt)) :
      Becomes session (.compute work)
        { session with
          engine :=
            { session.engine with
              ingestion :=
                { accumulators := work.accumulators
                  figures :=
                    { session.engine.ingestion.figures with groupRuns := work.groupRuns }
                  errors := work.errors }
              posting := some (.apply
                (.ofCompletions block.height session.engine.groups.length work.completions)) }
          computing := none }
  | post {job : CommitJob α} (hrunning : session.engine.phase = .running)
      (hposting : session.engine.posting = some job) (hconsuming : session.consuming = true) :
      Becomes session .post
        { session with
          engine :=
            { session.engine with
              commits := session.engine.commits ++ [job]
              posting := none } }
  /-- The queue refuses a job of ingestion. -/
  | forgo {job : CommitJob α} (hrunning : session.engine.phase = .running)
      (hposting : session.engine.posting = some job) (hconsuming : session.consuming = false) :
      Becomes session .post
        { session with
          engine := { session.engine with posting := none }
          ingesting := session.ingesting && goesOn job }
  | leaveIngestion (hrunning : session.engine.phase = .running)
      (hclosed : session.engine.intakeOpen = false) (hintake : session.engine.intake = [])
      (hcomputing : session.computing = none) (hposting : session.engine.posting = none) :
      Becomes session .leaveIngestion { session with ingesting := false }
  /-- A measurement without a rate. -/
  | observe {now : Int64} (meter : RateMeter) (set : AccumulatorSet α)
      (hrunning : session.engine.phase = .running) (hmeasured : session.engine.measured = none) :
      Becomes session (.measure now)
        { session with
          engine :=
            { session.engine with
              meter
              ingestion := { session.engine.ingestion with accumulators := set } } }
  | measure {now : Int64} {sample : RateSample α} {set : AccumulatorSet α}
      (hrunning : session.engine.phase = .running)
      (hmeasuring : session.engine.measuring = true) (hmeasured : session.engine.measured = none)
      (hrun : (session.engine.meter.tick ⟨session.engine.volume, now⟩).2.run
        session.engine.accumulators = (.ok (some sample), set)) :
      Becomes session (.measure now)
        { session with
          engine :=
            { session.engine with
              meter := (session.engine.meter.tick (α := α) ⟨session.engine.volume, now⟩).1
              ingestion := { session.engine.ingestion with accumulators := set }
              measured := some (.apply sample.batch)
              rateTicks := session.engine.rateTicks + 1 }
          logbook :=
            { session.logbook with
              measured := session.logbook.measured ++ [.apply sample.batch] } }
  | report {job : CommitJob α} (hrunning : session.engine.phase = .running)
      (hmeasured : session.engine.measured = some job) (hconsuming : session.consuming = true) :
      Becomes session .report
        { session with
          engine :=
            { session.engine with
              commits := session.engine.commits ++ [job]
              measured := none } }
  /-- The queue refuses a measurement. -/
  | forgoReport {job : CommitJob α} (hrunning : session.engine.phase = .running)
      (hmeasured : session.engine.measured = some job) (hconsuming : session.consuming = false) :
      Becomes session .report
        { session with engine := { session.engine with measured := none, measuring := false } }
  | leaveMeasuring (hrunning : session.engine.phase = .running)
      (hclosed : session.engine.intakeOpen = false) (hmeasured : session.engine.measured = none) :
      Becomes session .leaveMeasuring
        { session with engine := { session.engine with measuring := false } }
  | fetch {job : CommitJob α} {later : List (CommitJob α)}
      (hrunning : session.engine.phase = .running) (hconsuming : session.consuming = true)
      (hhandling : session.handling = .idle) (hcommits : session.engine.commits = job :: later) :
      Becomes session .fetch
        { session with
          engine := { session.engine with commits := later }
          handling := .taken job }
  | perform {job : CommitJob α} (hrunning : session.engine.phase = .running)
      (hhandling : session.handling = .taken job) :
      Becomes session .perform
        { session with
          engine :=
            { session.engine with
              consumer :=
                { session.engine.consumer.step job with figures := session.engine.consumer.figures } }
          handling := .shown job (session.engine.consumer.step job).figures
          logbook := { session.logbook with performed := session.logbook.performed ++ [job] } }
  | count {job : CommitJob α} {figures : CommitFigures}
      (hrunning : session.engine.phase = .running)
      (hhandling : session.handling = .shown job figures) :
      Becomes session .count
        { session with
          engine :=
            { session.engine with consumer := { session.engine.consumer with figures } }
          handling := .idle }
  | leaveConsumer (hrunning : session.engine.phase = .running) (hhandling : session.handling = .idle)
      (hcommits : session.engine.commits = []) (hingesting : session.ingesting = false)
      (hmeasuring : session.engine.measuring = false) :
      Becomes session .leaveConsumer { session with consuming := false }
  | join (hrunning : session.engine.phase = .running) (hjoining : session.joining = true)
      (hingesting : session.ingesting = false) (hmeasuring : session.engine.measuring = false)
      (hconsuming : session.consuming = false) :
      Becomes session .join
        { session with
          engine := { session.engine with phase := .finished }
          joining := false }

private theorem Becomes.nothing {session : Session α} {act : Act α} (hact : act.governs = false) :
    session.Becomes act session := by
  refine .idle ?_ ?_
  · rintro rfl
    cases hact
  · rintro rfl
    cases hact

section becomes

variable {session : Session α}

private theorem becomes_submit (event : IngestEvent) :
    session.Becomes (.submit event) (session.submit event).1 := by
  unfold submit
  split
  next haccepted =>
    obtain ⟨hopen, hreceiver⟩ := Bool.and_eq_true_iff.1 haccepted
    simp only [Engine.submit, if_pos hopen]
    exact .submit event hopen hreceiver
  next => exact .nothing rfl

private theorem becomes_ask : session.Becomes .ask session.ask.1 := by
  simp only [ask, submit]
  by_cases haccepted : (session.engine.intakeOpen && session.hasReceiver) = true
  · rw [if_pos haccepted]
    obtain ⟨hopen, hreceiver⟩ := Bool.and_eq_true_iff.1 haccepted
    simp only [Engine.submit, if_pos hopen]
    exact .ask hopen hreceiver
  · rw [if_neg haccepted]
    exact .nothing rfl

private theorem becomes_receive (hrunning : session.engine.phase = .running) :
    session.Becomes .receive session.receive := by
  unfold receive
  split
  next hready =>
    simp only [Bool.and_eq_true, Option.isNone_iff_eq_none] at hready
    obtain ⟨⟨hingesting, hcomputing⟩, hposting⟩ := hready
    split
    next => exact .nothing rfl
    next event later hintake =>
      simp only
      split
      next taken => exact .take hrunning hingesting hcomputing hposting hintake
      next hevent =>
        rw [Engine.stepIngestion_of_intake hposting hintake]
        exact .handle hrunning hingesting hcomputing hposting hintake hevent
  next => exact .nothing rfl

private theorem becomes_compute (hrunning : session.engine.phase = .running) (work : Work α) :
    session.Becomes (.compute work) (session.compute work) := by
  unfold compute
  split
  next => exact .nothing rfl
  next block receivedAt hcomputing => exact .compute work hrunning hcomputing

private theorem becomes_post (hrunning : session.engine.phase = .running) :
    session.Becomes .post session.post := by
  unfold post
  split
  next => exact .nothing rfl
  next job hposting =>
    split
    next hconsuming =>
      simp only [Engine.stepIngestion, hposting]
      exact .post hrunning hposting hconsuming
    next hconsuming => exact .forgo hrunning hposting (Bool.not_eq_true _ ▸ hconsuming)

private theorem becomes_leaveIngestion (hrunning : session.engine.phase = .running) :
    session.Becomes .leaveIngestion session.leaveIngestion := by
  unfold leaveIngestion
  split
  next => exact .nothing rfl
  next hready =>
    simp only [Bool.or_eq_true, not_or, Bool.not_eq_true, Bool.not_eq_false', List.isEmpty_iff,
      Option.isSome_eq_false_iff, Option.isNone_iff_eq_none] at hready
    obtain ⟨⟨⟨hclosed, hintake⟩, hcomputing⟩, hposting⟩ := hready
    exact .leaveIngestion hrunning hclosed hintake hcomputing hposting

private theorem becomes_measure (hrunning : session.engine.phase = .running) (now : Int64) :
    session.Becomes (.measure now) (session.measure now) := by
  have hstep := Engine.becomes_stepMeasurement hrunning now
  unfold measure
  generalize session.engine.stepMeasurement now = next at hstep
  cases hstep with
  | idle =>
    have hnothing : (if session.engine.measured.isNone then session.engine.measured.toList else []) =
        [] := by
      cases session.engine.measured <;> rfl
    simp only [hnothing, List.append_nil]
    exact .nothing rfl
  | observe _ hmeasuring hmeasured hrun hnone =>
    simp only [hmeasured, Option.isNone_none, if_true, Option.toList_none, List.append_nil]
    rw [← hmeasured]
    exact .observe _ _ hrunning hmeasured
  | measure _ hmeasuring hmeasured hrun =>
    simp only [hmeasured, Option.isNone_none, if_true, Option.toList_some]
    exact .measure hrunning hmeasuring hmeasured hrun

private theorem becomes_report (hrunning : session.engine.phase = .running) :
    session.Becomes .report session.report := by
  unfold report
  cases hmeasured : session.engine.measured with
  | none =>
    simp only [Option.isNone_none, Bool.or_true, if_true, Engine.stepReport, hmeasured]
    exact .nothing rfl
  | some job =>
    rw [Option.isNone_some, Bool.or_false]
    split
    next hconsuming =>
      simp only [Engine.stepReport, hmeasured]
      exact .report hrunning hmeasured hconsuming
    next hconsuming => exact .forgoReport hrunning hmeasured (Bool.not_eq_true _ ▸ hconsuming)

private theorem becomes_leaveMeasuring (hrunning : session.engine.phase = .running) :
    session.Becomes .leaveMeasuring { session with engine := session.engine.stepRest } := by
  unfold Engine.stepRest
  split
  next => exact .nothing rfl
  next hready =>
    simp only [Bool.or_eq_true, not_or, Bool.not_eq_true, Option.isSome_eq_false_iff,
      Option.isNone_iff_eq_none] at hready
    exact .leaveMeasuring hrunning hready.1 hready.2

private theorem becomes_fetch (hrunning : session.engine.phase = .running) :
    session.Becomes .fetch session.fetch := by
  unfold fetch
  split
  next job later hconsuming hhandling hcommits =>
    exact .fetch hrunning hconsuming hhandling hcommits
  next => exact .nothing rfl

private theorem becomes_perform (hrunning : session.engine.phase = .running) :
    session.Becomes .perform session.perform := by
  unfold perform
  split
  next job hhandling => exact .perform hrunning hhandling
  all_goals exact .nothing rfl

private theorem becomes_count (hrunning : session.engine.phase = .running) :
    session.Becomes .count session.count := by
  unfold count
  split
  next job figures hhandling => exact .count hrunning hhandling
  all_goals exact .nothing rfl

private theorem becomes_leaveConsumer (hrunning : session.engine.phase = .running) :
    session.Becomes .leaveConsumer session.leaveConsumer := by
  unfold leaveConsumer
  split
  next hhandling hcommits =>
    split
    next => exact .nothing rfl
    next hready =>
      simp only [Bool.or_eq_true, not_or, Bool.not_eq_true] at hready
      exact .leaveConsumer hrunning hhandling hcommits hready.1 hready.2
  next => exact .nothing rfl

private theorem becomes_join (hrunning : session.engine.phase = .running) :
    session.Becomes .join session.join := by
  unfold join
  split
  next hready =>
    simp only [Bool.and_eq_true, Bool.not_eq_true'] at hready
    obtain ⟨⟨⟨hjoining, hingesting⟩, hmeasuring⟩, hconsuming⟩ := hready
    exact .join hrunning hjoining hingesting hmeasuring hconsuming
  next => exact .nothing rfl

private theorem becomes_work (hrunning : session.engine.phase = .running) {act : Act α}
    (hact : act.governs = false) : session.Becomes act (session.work act) := by
  cases act with
  | receive => exact becomes_receive hrunning
  | compute work => exact becomes_compute hrunning work
  | post => exact becomes_post hrunning
  | leaveIngestion => exact becomes_leaveIngestion hrunning
  | measure now => exact becomes_measure hrunning now
  | report => exact becomes_report hrunning
  | leaveMeasuring => exact becomes_leaveMeasuring hrunning
  | fetch => exact becomes_fetch hrunning
  | perform => exact becomes_perform hrunning
  | count => exact becomes_count hrunning
  | leaveConsumer => exact becomes_leaveConsumer hrunning
  | join => exact becomes_join hrunning
  | _ => exact .nothing hact

theorem becomes_make (session : Session α) (act : Act α) :
    session.Becomes act (session.make act) := by
  have hwork (hact : act.governs = false) : session.Becomes act
      (if session.engine.phase = .running then session.work act else session) := by
    split
    next hrunning => exact becomes_work hrunning hact
    next => exact .nothing hact
  cases act with
  | start =>
    simp only [make, start, Engine.start]
    by_cases hwaiting : session.engine.phase = .waiting
    · rw [if_pos hwaiting]
      exact .start hwaiting
    · rw [if_neg hwaiting]
      refine .idle (fun _ => hwaiting) ?_
      intro hstop
      cases hstop
  | stop => exact .stop
  | submit event => exact becomes_submit event
  | ask => exact becomes_ask
  | setWindow window =>
    simp only [make, Engine.setWindow]
    cases hset : session.engine.accumulators.setWindow window with
    | ok set => exact .setWindow hset
    | error error => exact .nothing rfl
  | setVolume counters => exact .setVolume counters
  | _ => exact hwork rfl

end becomes

end Session

end NodeTelemetry
