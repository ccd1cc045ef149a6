import NodeTelemetry.Proofs.Engine.Moves
import NodeTelemetry.Proofs.Engine.Pipeline
import NodeTelemetry.Proofs.Except
import NodeTelemetry.Proofs.Group.Footprint

/-!
The order of the commits. Measurements apart, every accepted event asks for one job of the consumer or
for none. Whatever the interleaving of the tasks, the jobs that were done, those that wait and the
events that wait make up what the accepted events ask for, in the order of acceptance.
-/

set_option autoImplicit false

namespace NodeTelemetry

variable {α : Type} [Scalar α]

/-- What an event asks of the consumer. -/
inductive Duty (α : Type) where
  /-- A batch of the block at a height. -/
  | block (height : UInt64)
  /-- A batch of a queue status, with its updates. -/
  | queueStatus (updates : List (Update α))
  | truncate (height : UInt64)
  | barrier (ticket : Nat)

def IngestEvent.duty? : IngestEvent → Option (Duty α)
  | .sample (some (block, _)) => some (.block block.height)
  | .sample none => none
  | .queueStatus status => some (.queueStatus (Batch.ofQueueStatus status).updates)
  | .blockPopped height => some (.truncate height)
  | .flush ticket => some (.barrier ticket)

omit [Scalar α] in
def Batch.duty? (batch : Batch α) : Option (Duty α) :=
  match batch.kind with
  | .block height => some (.block height)
  | .network _ => none
  | .queueStatus => some (.queueStatus batch.updates)

def CommitJob.duty? : CommitJob α → Option (Duty α)
  | .apply batch => batch.duty?
  | .truncate height => some (.truncate height)
  | .barrier ticket => some (.barrier ticket)

/-! ### The jobs of one event -/

private theorem Ingestion.duty?_handle (ingestion : Ingestion α) (groups : List (Group α))
    (route : ErrorRoute) (event : IngestEvent) :
    (ingestion.handle groups route event).2.job?.bind CommitJob.duty? = event.duty? := by
  cases event with
  | sample taken =>
    cases taken with
    | none => rfl
    | some taken => rfl
  | queueStatus status => rfl
  | blockPopped height => rfl
  | flush ticket => rfl

theorem RateMeter.exists_batch_of_tick {meter : RateMeter} {now : VolumeSnapshot}
    {set after : AccumulatorSet α} {sample : RateSample α}
    (h : (meter.tick now).2.run set = (.ok (some sample), after)) :
    ∃ upload download, sample.batch =
      ⟨.network now.observedAt, points now upload download ++ readouts now upload download⟩ :=
  (within_tick meter now).of_run h sample rfl

/-! ### Jobs of the consumer -/

def Dashboard.perform (dashboard : Dashboard α) : CommitJob α → Dashboard α
  | .apply batch => dashboard.apply batch
  | .truncate height => (dashboard.truncate height).1
  | .barrier _ => dashboard

def Dashboard.performAll (dashboard : Dashboard α) (jobs : List (CommitJob α)) : Dashboard α :=
  jobs.foldl perform dashboard

theorem Dashboard.performAll_append (dashboard : Dashboard α) (first later : List (CommitJob α)) :
    dashboard.performAll (first ++ later) = (dashboard.performAll first).performAll later :=
  List.foldl_append

private def IngestEvent.ticket? : IngestEvent → Option Nat
  | .sample _ | .queueStatus _ | .blockPopped _ => none
  | .flush ticket => some ticket

private def CommitJob.ticket? : CommitJob α → Option Nat
  | .apply _ | .truncate _ => none
  | .barrier ticket => some ticket

namespace Consumer

theorem dashboard_run (consumer : Consumer α) (jobs : List (CommitJob α)) :
    (consumer.run jobs).dashboard = consumer.dashboard.performAll jobs := by
  induction jobs generalizing consumer with
  | nil => rfl
  | cons job jobs ih =>
    have hstep : (consumer.step job).dashboard = consumer.dashboard.perform job := by
      cases job <;> rfl
    have hrest := ih (consumer.step job)
    rw [hstep] at hrest
    exact hrest

private theorem confirmed_run (consumer : Consumer α) (jobs : List (CommitJob α)) :
    (consumer.run jobs).confirmed = consumer.confirmed ++ jobs.filterMap CommitJob.ticket? := by
  induction jobs generalizing consumer with
  | nil => exact (List.append_nil _).symm
  | cons job jobs ih =>
    have hrest := ih (consumer.step job)
    cases job with
    | apply batch => exact hrest
    | truncate height => exact hrest
    | barrier ticket =>
      rw [List.filterMap_cons]
      exact hrest.trans (List.append_assoc _ _ _)

end Consumer

namespace Engine

/-! ### One move -/

def applied (engine : Engine α) : List Move → List (CommitJob α)
  | [] => []
  | move :: moves => engine.taken move ++ applied (engine.make move) moves

/-- What was asked of the consumer and is not done, oldest first. -/
def owed (engine : Engine α) : List (Duty α) :=
  engine.waiting.filterMap CommitJob.duty? ++ engine.intake.filterMap IngestEvent.duty?

def MeasuresOnly (engine : Engine α) : Prop := ∀ job ∈ engine.measured, job.duty? = none

variable {engine next : Engine α} {move : Move}

private theorem Becomes.consumer_eq (h : engine.Becomes move next) :
    next.consumer = engine.consumer.run (engine.taken move) := by
  cases h with
  | idle _ htaken =>
    rw [htaken]
    rfl
  | commit hrunning hcommits =>
    simp only [taken, if_pos hrunning, hcommits]
    rfl
  | _ => rfl

theorem Becomes.dashboard_eq (h : engine.Becomes move next) :
    next.dashboard = engine.dashboard.performAll (engine.taken move) := by
  rw [dashboard, h.consumer_eq, Consumer.dashboard_run]
  rfl

theorem duty?_of_handle (engine : Engine α) (event : IngestEvent) :
    (engine.ingestion.handle engine.groups engine.route event).2.job?.toList.filterMap
        CommitJob.duty? = (event.duty? : Option (Duty α)).toList := by
  rw [← engine.ingestion.duty?_handle engine.groups engine.route event]
  cases (engine.ingestion.handle engine.groups engine.route event).2.job? with
  | none => rfl
  | some job => cases hduty : job.duty? <;> simp [hduty]

private theorem Becomes.measuresOnly (h : engine.Becomes move next)
    (hmeasures : engine.MeasuresOnly) : next.MeasuresOnly := by
  cases h with
  | measure _ _ _ hrun =>
    obtain ⟨upload, download, hbatch⟩ := RateMeter.exists_batch_of_tick hrun
    intro job hjob
    cases hjob
    simp only [CommitJob.duty?, Batch.duty?, hbatch]
  | report =>
    intro job hjob
    cases hjob
  | _ => exact hmeasures

/-- What is done at a move and what is owed after it is what was owed before, and what the arriving
events ask for. -/
theorem Becomes.duties_eq (h : engine.Becomes move next) (hmeasures : engine.MeasuresOnly) :
    (engine.taken move).filterMap CommitJob.duty? ++ next.owed =
      engine.owed ++ (engine.arriving move).filterMap IngestEvent.duty? := by
  have harrived : ∀ event : IngestEvent, engine.waiting.filterMap CommitJob.duty? ++
      (engine.intake ++ [event]).filterMap IngestEvent.duty? =
        engine.owed ++ [event].filterMap IngestEvent.duty? := by
    intro event
    rw [owed, List.filterMap_append, List.append_assoc]
  have hkept : engine.owed = engine.owed ++ List.filterMap IngestEvent.duty? [] :=
    (List.append_nil _).symm
  cases h with
  | idle harriving htaken =>
    rw [harriving, htaken]
    exact hkept
  | submit event hopen =>
    rw [arriving, if_pos hopen]
    exact harrived event
  | ask hopen =>
    rw [arriving, if_pos hopen]
    exact harrived (.flush engine.tickets)
  | post _ hposting =>
    refine Eq.trans ?_ hkept
    simp [taken, owed, waiting, hposting]
  | @take event later _ hposting hintake =>
    -- the event is owed as before, now as the job that it asks for
    refine Eq.trans ?_ hkept
    show (engine.commits ++ (engine.ingestion.handle engine.groups engine.route event).2.job?.toList
      ).filterMap CommitJob.duty? ++ later.filterMap IngestEvent.duty? = engine.owed
    rw [owed, waiting_of_none hposting, hintake, List.filterMap_append, duty?_of_handle]
    cases hduty : (event.duty? : Option (Duty α)) <;> simp [hduty]
  | @report job _ hmeasured =>
    have hnone : job.duty? = none := hmeasures job hmeasured
    refine Eq.trans ?_ hkept
    simp [taken, owed, waiting, hnone]
  | commit hrunning hcommits =>
    refine Eq.trans ?_ hkept
    rw [taken, if_pos hrunning, owed, owed, waiting, waiting, hcommits, ← List.append_assoc,
      ← List.filterMap_append]
    rfl
  | _ => exact hkept

/-! ### Runs -/

private theorem applied_append (engine : Engine α) (first later : List Move) :
    engine.applied (first ++ later) =
      engine.applied first ++ (engine.after first).applied later := by
  induction first generalizing engine with
  | nil => rfl
  | cons move first ih =>
    have hrest := ih (engine.make move)
    rw [List.cons_append, applied, hrest, applied, List.append_assoc]
    rfl

private theorem applied_prefix (engine : Engine α) {first moves : List Move} (h : first <+: moves) :
    engine.applied first <+: engine.applied moves := by
  obtain ⟨later, rfl⟩ := h
  rw [applied_append]
  exact List.prefix_append _ _

private theorem consumer_after (engine : Engine α) (moves : List Move) :
    (engine.after moves).consumer = engine.consumer.run (engine.applied moves) := by
  induction moves generalizing engine with
  | nil => rfl
  | cons move moves ih =>
    have hrest := ih (engine.make move)
    rw [(engine.becomes_make move).consumer_eq] at hrest
    rw [applied, Consumer.run, List.foldl_append]
    exact hrest

private theorem duties_after {engine : Engine α} (h : engine.MeasuresOnly) (moves : List Move) :
    (engine.applied moves).filterMap CommitJob.duty? ++ (engine.after moves).owed =
      engine.owed ++ (engine.accepted moves).filterMap IngestEvent.duty? := by
  induction moves generalizing engine with
  | nil => exact (List.append_nil _).symm
  | cons move moves ih =>
    have hmade := engine.becomes_make move
    calc
      (engine.applied (move :: moves)).filterMap CommitJob.duty? ++ (engine.after (move :: moves)).owed =
          (engine.taken move).filterMap CommitJob.duty? ++
            (((engine.make move).applied moves).filterMap CommitJob.duty? ++
              ((engine.make move).after moves).owed) := by
        rw [applied, List.filterMap_append, List.append_assoc]
        rfl
      _ = ((engine.taken move).filterMap CommitJob.duty? ++ (engine.make move).owed) ++
          ((engine.make move).accepted moves).filterMap IngestEvent.duty? := by
        rw [ih (hmade.measuresOnly h), List.append_assoc]
      _ = engine.owed ++ (engine.accepted (move :: moves)).filterMap IngestEvent.duty? := by
        rw [hmade.duties_eq h, accepted, List.filterMap_append, List.append_assoc]

/-! ### Flushes -/

def TicketsOwn (moves : List Move) : Prop := ∀ ticket, .submit (.flush ticket) ∉ moves

private theorem Becomes.exists_tickets (h : engine.Becomes move next)
    (howned : ∀ ticket, move ≠ .submit (.flush ticket)) :
    ∃ n, (engine.arriving move).filterMap IngestEvent.ticket? = List.range' engine.tickets n ∧
      next.tickets = engine.tickets + n := by
  cases h with
  | idle harriving =>
    rw [harriving]
    exact ⟨0, rfl, rfl⟩
  | submit event hopen =>
    rw [arriving, if_pos hopen]
    cases event with
    | flush ticket => exact absurd rfl (howned ticket)
    | sample taken => exact ⟨0, rfl, rfl⟩
    | queueStatus status => exact ⟨0, rfl, rfl⟩
    | blockPopped height => exact ⟨0, rfl, rfl⟩
  | ask hopen =>
    rw [arriving, if_pos hopen]
    exact ⟨1, rfl, rfl⟩
  | _ => exact ⟨0, rfl, rfl⟩

private theorem exists_tickets_after (engine : Engine α) {moves : List Move}
    (howned : TicketsOwn moves) :
    ∃ n, (engine.accepted moves).filterMap IngestEvent.ticket? = List.range' engine.tickets n := by
  induction moves generalizing engine with
  | nil => exact ⟨0, rfl⟩
  | cons move moves ih =>
    obtain ⟨n, harriving, htickets⟩ := (engine.becomes_make move).exists_tickets fun ticket heq =>
      howned ticket (heq ▸ List.mem_cons_self)
    obtain ⟨m, hrest⟩ := ih (engine.make move) fun ticket hmem =>
      howned ticket (List.mem_cons_of_mem _ hmem)
    refine ⟨n + m, ?_⟩
    rw [accepted, List.filterMap_append, harriving, hrest, htickets]
    exact List.range'_append_1

private theorem ticket_not_mem_before {engine : Engine α} {moves : List Move}
    (howned : TicketsOwn moves) {before later : List IngestEvent} {ticket : Nat}
    (haccepted : engine.accepted moves = before ++ .flush ticket :: later) :
    ticket ∉ before.filterMap IngestEvent.ticket? := by
  obtain ⟨n, htickets⟩ := engine.exists_tickets_after howned
  have hnodup : (List.range' engine.tickets n).Nodup := List.nodup_range'
  rw [← htickets, haccepted, List.filterMap_append, List.filterMap_cons] at hnodup
  exact fun hmem => (List.disjoint_of_nodup_append hnodup) hmem List.mem_cons_self

private theorem begins_of_mem {β : Type} {known before later : List β} {entry : β}
    (hbegins : known <+: before ++ entry :: later) (hmem : entry ∈ known) (hnew : entry ∉ before) :
    before ++ [entry] <+: known := by
  have hfirst : before ++ [entry] <+: before ++ entry :: later :=
    (List.prefix_append_right_inj before).2 (List.prefix_append [entry] later)
  rcases List.prefix_or_prefix_of_prefix hfirst hbegins with h | h
  · exact h
  · rcases List.prefix_concat_iff.1 h with rfl | h
    · exact List.prefix_rfl
    · exact absurd (h.subset hmem) hnew

omit [Scalar α] in
private theorem mem_duties_of_confirmed {jobs : List (CommitJob α)} {ticket : Nat}
    (h : ticket ∈ jobs.filterMap CommitJob.ticket?) :
    Duty.barrier ticket ∈ jobs.filterMap CommitJob.duty? := by
  obtain ⟨job, hjob, hticket⟩ := List.mem_filterMap.1 h
  refine List.mem_filterMap.2 ⟨job, hjob, ?_⟩
  cases job with
  | apply batch => cases hticket
  | truncate height => cases hticket
  | barrier own =>
    cases hticket
    rfl

private theorem mem_tickets_of_duty {events : List IngestEvent} {ticket : Nat}
    (h : (Duty.barrier ticket : Duty α) ∈ events.filterMap IngestEvent.duty?) :
    ticket ∈ events.filterMap IngestEvent.ticket? := by
  obtain ⟨event, hevent, hduty⟩ := List.mem_filterMap.1 h
  refine List.mem_filterMap.2 ⟨event, hevent, ?_⟩
  cases event with
  | sample taken =>
    cases taken with
    | none => cases hduty
    | some taken => cases hduty
  | queueStatus status => cases hduty
  | blockPopped height => cases hduty
  | flush own =>
    cases hduty
    rfl

private theorem duties_of_confirmed {engine : Engine α} {moves : List Move}
    (howned : TicketsOwn moves) (hbegins : (engine.applied moves).filterMap CommitJob.duty? <+:
      (engine.accepted moves).filterMap IngestEvent.duty?)
    {before later : List IngestEvent} {ticket : Nat}
    (haccepted : engine.accepted moves = before ++ .flush ticket :: later)
    (hconfirmed : ticket ∈ (engine.applied moves).filterMap CommitJob.ticket?) :
    before.filterMap IngestEvent.duty? ++ [Duty.barrier ticket] <+:
      (engine.applied moves).filterMap CommitJob.duty? := by
  rw [haccepted, List.filterMap_append, List.filterMap_cons] at hbegins
  exact begins_of_mem hbegins (mem_duties_of_confirmed hconfirmed) fun hmem =>
    ticket_not_mem_before howned haccepted (mem_tickets_of_duty hmem)

/-- A flush that is done was accepted; it has asked for a ticket, and the tasks have worked until that
was confirmed. -/
theorem exists_steps_of_flush {engine flushed : Engine α} (h : engine.flush = (flushed, .done)) :
    engine.intakeOpen = true ∧ engine.tickets ∈ flushed.consumer.confirmed ∧
      ∃ schedule : List Task, flushed = engine.after (.ask :: schedule.map Move.step) := by
  by_cases hopen : engine.intakeOpen = true
  · obtain ⟨schedule, hsettle⟩ := (engine.make .ask).exists_settle_eq_after
    have hflush : engine.flush = ((engine.make .ask).settle,
        if (engine.make .ask).settle.consumer.confirmed.contains engine.tickets then .done
        else .pending) := by
      simp [flush, submit, make, hopen]
    rw [h, Prod.mk.injEq] at hflush
    obtain ⟨rfl, hdone⟩ := hflush
    refine ⟨hopen, ?_, schedule, hsettle⟩
    split at hdone
    next hconfirmed => exact List.contains_iff_mem.1 hconfirmed
    next => cases hdone
  · have hrefused : engine.flush = (engine, .refused) := by
      simp [flush, submit, hopen]
    rw [hrefused] at h
    cases h

private theorem ticketsOwn_flush {moves : List Move} (howned : TicketsOwn moves)
    (schedule : List Task) : TicketsOwn (moves ++ .ask :: schedule.map Move.step) := by
  intro ticket hmem
  rcases List.mem_append.1 hmem with hmem | hmem
  · exact howned ticket hmem
  · rcases List.mem_cons.1 hmem with heq | hmem
    · cases heq
    · obtain ⟨task, -, heq⟩ := List.mem_map.1 hmem
      cases heq

/-! ### Fresh engines -/

/-- Nothing was asked of the engine yet, and its consumer has done nothing. -/
structure Untouched (engine : Engine α) (store : SeriesStore α) : Prop where
  measures : engine.MeasuresOnly
  owed : engine.owed = []
  consumer : engine.consumer = .fresh store

namespace Untouched

variable {engine : Engine α} {store : SeriesStore α}

private theorem duties_eq (h : engine.Untouched store) (moves : List Move) :
    (engine.applied moves).filterMap CommitJob.duty? ++ (engine.after moves).owed =
      (engine.accepted moves).filterMap IngestEvent.duty? := by
  rw [duties_after h.measures, h.owed, List.nil_append]

private theorem begins (h : engine.Untouched store) (moves : List Move) :
    (engine.applied moves).filterMap CommitJob.duty? <+:
      (engine.accepted moves).filterMap IngestEvent.duty? :=
  ⟨_, h.duties_eq moves⟩

theorem dashboard_eq (h : engine.Untouched store) (moves : List Move) :
    (engine.after moves).dashboard = (Dashboard.empty store).performAll (engine.applied moves) := by
  rw [dashboard, consumer_after, Consumer.dashboard_run, h.consumer]
  rfl

private theorem confirmed_eq (h : engine.Untouched store) (moves : List Move) :
    (engine.after moves).consumer.confirmed =
      (engine.applied moves).filterMap CommitJob.ticket? := by
  rw [consumer_after, Consumer.confirmed_run, h.consumer]
  rfl

private theorem exists_jobs_of_flush (h : engine.Untouched store) {moves : List Move}
    (howned : TicketsOwn moves) {flushed : Engine α}
    (hflushed : (engine.after moves).flush = (flushed, .done)) :
    ∃ jobs, flushed.dashboard = (Dashboard.empty store).performAll (engine.applied moves ++ jobs) ∧
      (engine.accepted moves).filterMap IngestEvent.duty? <+:
        (engine.applied moves ++ jobs).filterMap CommitJob.duty? := by
  obtain ⟨hopen, hticket, schedule, hsteps⟩ := exists_steps_of_flush hflushed
  let steps : List Move := .ask :: schedule.map Move.step
  have hall : flushed = engine.after (moves ++ steps) :=
    hsteps.trans (engine.after_append moves steps).symm
  have haccepted : engine.accepted (moves ++ steps) = engine.accepted moves ++
      .flush (engine.after moves).tickets ::
        ((engine.after moves).make .ask).accepted (schedule.map Move.step) := by
    rw [accepted_append]
    simp only [steps, accepted, arriving, if_pos hopen, List.singleton_append]
  rw [hall, h.confirmed_eq] at hticket
  have hbefore := duties_of_confirmed (ticketsOwn_flush howned schedule)
    (h.begins (moves ++ steps)) haccepted hticket
  refine ⟨(engine.after moves).applied steps, ?_, ?_⟩
  · rw [← applied_append, ← h.dashboard_eq, ← hall]
  · rw [← applied_append]
    exact (List.prefix_append _ _).trans hbefore

end Untouched

/-- An engine with other groups and another place for caught errors. -/
def equipped (engine : Engine α) (groups : List (Group α)) (route : ErrorRoute) : Engine α :=
  { engine with groups, route }

theorem untouched_of_build {config : EngineConfig} {fresh : Engine α}
    (hbuild : build config = .ok fresh) (groups : List (Group α)) (route : ErrorRoute) :
    (fresh.equipped groups route).Untouched (.ofDescriptors catalogue config.histories) := by
  obtain ⟨set, -, hfresh⟩ := exists_of_bind hbuild
  cases hfresh
  refine ⟨fun job hjob => ?_, rfl, rfl⟩
  cases hjob

/-- The jobs that are done are those that the accepted events ask for, in the order of acceptance and
each but once; what is missing of them waits. The dashboard is at any time the outcome of the jobs done
so far, and once the ticket of a flush is confirmed, all that was accepted before it is done. -/
theorem commits_follow_events {config : EngineConfig} {fresh : Engine α}
    (hbuild : build config = .ok fresh) (groups : List (Group α)) (route : ErrorRoute)
    (moves : List Move) :
    let engine := fresh.equipped groups route
    let empty : Dashboard α := .empty (.ofDescriptors catalogue config.histories)
    (engine.applied moves).filterMap CommitJob.duty? <+:
        (engine.accepted moves).filterMap IngestEvent.duty? ∧
      (engine.applied moves).filterMap CommitJob.duty? ++ (engine.after moves).owed =
        (engine.accepted moves).filterMap IngestEvent.duty? ∧
      (∀ first, first <+: moves → engine.applied first <+: engine.applied moves ∧
        (engine.after first).dashboard = empty.performAll (engine.applied first)) ∧
      (TicketsOwn moves → ∀ before ticket later,
        engine.accepted moves = before ++ .flush ticket :: later →
        ticket ∈ (engine.after moves).consumer.confirmed →
          before.filterMap IngestEvent.duty? ++ [Duty.barrier ticket] <+:
            (engine.applied moves).filterMap CommitJob.duty?) ∧
      (TicketsOwn moves → ∀ flushed, (engine.after moves).flush = (flushed, .done) →
        ∃ jobs, flushed.dashboard = empty.performAll (engine.applied moves ++ jobs) ∧
          (engine.accepted moves).filterMap IngestEvent.duty? <+:
            (engine.applied moves ++ jobs).filterMap CommitJob.duty?) := by
  intro engine empty
  have h := untouched_of_build hbuild groups route
  refine ⟨h.begins moves, h.duties_eq moves, fun first hfirst =>
    ⟨engine.applied_prefix hfirst, h.dashboard_eq first⟩, ?_, ?_⟩
  · intro howned before ticket later haccepted hticket
    rw [h.confirmed_eq] at hticket
    exact duties_of_confirmed howned (h.begins moves) haccepted hticket
  · intro howned flushed hflushed
    exact h.exists_jobs_of_flush howned hflushed

/-- A block, its rollback and a flush, with a measurement in between. -/
theorem commits_follow_events_flush :
    let config : EngineConfig := { chartHistory := 2, speedHistory := 2, window := 1 }
    let events : List IngestEvent := [.sample (some ({ height := 7 }, 1000)), .blockPopped 5]
    let ingest : List Move := [.step .ingestion, .step .ingestion, .step .ingestion]
    let measure (now : Int64) : List Move := [.step (.measurement now), .step .report]
    let commit : List Move := [.step .commit, .step .commit, .step .commit, .step .commit]
    let moves : List Move := List.flatten [[.start], measure 1000, events.map .submit, [.ask], ingest,
      measure 2000, ingest, commit]
    ∃ fresh : Engine Rat, build config = .ok fresh ∧ TicketsOwn moves ∧
      (fresh.applied moves).length = 4 ∧ fresh.accepted moves = events ++ [.flush 0] ∧
      0 ∈ (fresh.after moves).consumer.confirmed ∧
      [Duty.block 7, .truncate 5, .barrier 0] <+: (fresh.applied moves).filterMap CommitJob.duty? ∧
      ∃ jobs, (fresh.after moves).flush.1.dashboard =
          (Dashboard.empty (.ofDescriptors catalogue config.histories)).performAll
            (fresh.applied moves ++ jobs) ∧
        [Duty.block 7, .truncate 5, .barrier 0] <+:
          (fresh.applied moves ++ jobs).filterMap CommitJob.duty? := by
  intro config events ingest measure commit moves
  have hrun : ∀ fresh ∈ (build config : Except SizeError (Engine Rat)).toOption,
      (fresh.applied moves).length = 4 ∧ fresh.accepted moves = events ++ [.flush 0] ∧
      0 ∈ (fresh.after moves).consumer.confirmed ∧ (fresh.after moves).flush.2 = .done := by
    decide +kernel
  have howned : TicketsOwn moves := by
    intro ticket
    simp [moves, events, ingest, measure, commit]
  obtain ⟨fresh, -, hbuild, -⟩ :=
    exists_build (α := Rat) (show 0 < config.window by decide) (by decide)
  obtain ⟨hlength, haccepted, hconfirmed, hdone⟩ := hrun fresh (by rw [hbuild]; rfl)
  have hown : fresh.equipped fresh.groups fresh.route = fresh := rfl
  have hall := commits_follow_events hbuild fresh.groups fresh.route moves
  rw [hown] at hall
  obtain ⟨-, -, -, hflushed, hflush⟩ := hall
  have hflushed' : (fresh.after moves).flush = ((fresh.after moves).flush.1, .done) := by
    rw [← hdone]
  obtain ⟨jobs, hdashboard, hduties⟩ := hflush howned _ hflushed'
  have hbefore : events.filterMap IngestEvent.duty? ++ [Duty.barrier 0] =
      ([.block 7, .truncate 5, .barrier 0] : List (Duty Rat)) := rfl
  have hasked : (fresh.accepted moves).filterMap IngestEvent.duty? =
      ([.block 7, .truncate 5, .barrier 0] : List (Duty Rat)) := by
    rw [haccepted]
    rfl
  have hticket := hflushed howned events 0 [] haccepted hconfirmed
  rw [hbefore] at hticket
  rw [hasked] at hduties
  exact ⟨fresh, hbuild, howned, hlength, haccepted, hconfirmed, hticket, jobs, hdashboard, hduties⟩

end Engine

end NodeTelemetry
