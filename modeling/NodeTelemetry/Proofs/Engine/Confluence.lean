import NodeTelemetry.Proofs.Engine.Settling

/-!
Confluence. Without measurements there is one order in which events and jobs can be worked off, so it
makes no difference how the steps of ingestion and of the consumer come between the calls of a caller:
all schedules lead to the engine that has worked off everything.
-/

set_option autoImplicit false

namespace NodeTelemetry

variable {α : Type}

/-! ### Ingestion with a queue that takes every job -/

private theorem Posting.deliver_open (posting : Posting α) (jobs : List (CommitJob α)) :
    posting.deliver ⟨jobs, true⟩ = (⟨jobs ++ posting.job?.toList, true⟩, true) := by
  cases posting with
  | nothing => rw [deliver, job?, Option.toList_none, List.append_nil]
  | job own => rfl
  | rollback height => rfl

variable [Scalar α]

namespace Ingestion

variable (groups : List (Group α)) (route : ErrorRoute)

private theorem run_cons (event : IngestEvent) (events : List IngestEvent) (ingestion : Ingestion α)
    (jobs : List (CommitJob α)) :
    run groups route (event :: events) ingestion ⟨jobs, true⟩ =
      run groups route events (ingestion.handle groups route event).1
        ⟨jobs ++ (ingestion.handle groups route event).2.job?.toList, true⟩ := by
  rw [run]
  simp only [Posting.deliver_open, if_true]

private theorem run_open (events : List IngestEvent) (ingestion : Ingestion α)
    (jobs : List (CommitJob α)) :
    run groups route events ingestion ⟨jobs, true⟩ =
      ((run groups route events ingestion .serving).1,
        ⟨jobs ++ (run groups route events ingestion .serving).2.jobs, true⟩) := by
  induction events generalizing ingestion jobs with
  | nil =>
    rw [run, run, CommitQueue.serving, List.append_nil]
  | cons event events ih =>
    rw [run_cons, ih, CommitQueue.serving, run_cons, ih _ ([] ++ _), List.nil_append,
      List.append_assoc]
    rfl

private theorem run_append (first later : List IngestEvent) (ingestion : Ingestion α)
    (jobs : List (CommitJob α)) :
    run groups route (first ++ later) ingestion ⟨jobs, true⟩ =
      run groups route later (run groups route first ingestion ⟨jobs, true⟩).1
        (run groups route first ingestion ⟨jobs, true⟩).2 := by
  induction first generalizing ingestion jobs with
  | nil => rfl
  | cons event first ih => rw [List.cons_append, run_cons, ih, run_cons]

end Ingestion

private theorem Consumer.run_append (consumer : Consumer α) (first later : List (CommitJob α)) :
    consumer.run (first ++ later) = (consumer.run first).run later :=
  List.foldl_append

def Task.measures : Task → Bool
  | .measurement _ => true
  | .ingestion | .report | .rest | .commit => false

namespace Engine

/-! ### The engine that has worked off everything -/

def ingested (engine : Engine α) : Ingestion α × CommitQueue α :=
  Ingestion.run engine.groups engine.route engine.intake engine.ingestion .serving

/-- The engine once all events and jobs that wait have been worked off in their order. -/
def cleared (engine : Engine α) : Engine α :=
  { engine with
    intake := []
    ingestion := engine.ingested.1
    posting := none
    commits := []
    consumer := engine.consumer.run (engine.waiting ++ engine.ingested.2.jobs) }

private theorem cleared_of_idle {engine : Engine α} (hintake : engine.intake = [])
    (hposting : engine.posting = none) (hcommits : engine.commits = []) :
    engine.cleared = engine := by
  obtain ⟨⟩ := engine
  cases hintake
  cases hposting
  cases hcommits
  rfl

private theorem cleared_stepIngestion (engine : Engine α) :
    engine.stepIngestion.cleared = engine.cleared := by
  cases hposting : engine.posting with
  | some job =>
    have hstep : engine.stepIngestion =
        { engine with commits := engine.commits ++ [job], posting := none } := by
      rw [stepIngestion, hposting]
    have hwaiting : engine.stepIngestion.waiting = engine.waiting := by
      rw [hstep, waiting, waiting, hposting]
      exact List.append_nil _
    rw [cleared, hwaiting, hstep]
    rfl
  | none =>
    cases hintake : engine.intake with
    | nil =>
      have hself : engine.stepIngestion = engine := by
        rw [stepIngestion, hposting, hintake]
      rw [hself]
    | cons event later =>
      have hstep := stepIngestion_of_intake hposting hintake
      generalize hhandle : engine.ingestion.handle engine.groups engine.route event = handled at hstep
      have hrun : engine.ingested =
          ((Ingestion.run engine.groups engine.route later handled.1 .serving).1,
            ⟨handled.2.job?.toList ++
              (Ingestion.run engine.groups engine.route later handled.1 .serving).2.jobs, true⟩) := by
        rw [ingested, hintake, CommitQueue.serving, Ingestion.run_cons, hhandle, Ingestion.run_open]
        rfl
      have hwaiting : engine.waiting = engine.commits := waiting_of_none hposting
      rw [cleared, cleared, hrun, hwaiting, ← List.append_assoc, hstep]
      rfl

private theorem cleared_stepCommit (engine : Engine α) :
    engine.stepCommit.cleared = engine.cleared := by
  cases hcommits : engine.commits with
  | nil =>
    have hself : engine.stepCommit = engine := by
      rw [stepCommit, hcommits]
    rw [hself]
  | cons job later =>
    have hstep : engine.stepCommit =
        { engine with commits := later, consumer := engine.consumer.step job } := by
      rw [stepCommit, hcommits]
    have hwaiting : engine.waiting = job :: (later ++ engine.posting.toList) := by
      rw [waiting, hcommits, List.cons_append]
    rw [hstep, cleared, cleared, hwaiting]
    rfl

/-- A running engine that accepts events, with no measurement to post. -/
structure Quiet (engine : Engine α) : Prop where
  running : engine.phase = .running
  opened : engine.intakeOpen = true
  measured : engine.measured = none

namespace Quiet

variable {engine : Engine α}

private theorem step (h : engine.Quiet) {task : Task} (htask : task.measures = false) :
    (engine.step task).Quiet ∧ (engine.step task).cleared = engine.cleared := by
  rw [step_of_running h.running]
  cases task with
  | ingestion =>
    have hsame := engine.sameOutside_stepIngestion
    refine ⟨⟨hsame.phase.trans h.running, hsame.intakeOpen.trans h.opened,
      hsame.measured.trans h.measured⟩, engine.cleared_stepIngestion⟩
  | measurement now => cases htask
  | report =>
    have hself : engine.stepReport = engine := by
      rw [stepReport, h.measured]
    change engine.stepReport.Quiet ∧ engine.stepReport.cleared = engine.cleared
    rw [hself]
    exact ⟨h, rfl⟩
  | rest =>
    have hself : engine.stepRest = engine := by
      rw [stepRest, h.opened, Bool.true_or, if_pos rfl]
    change engine.stepRest.Quiet ∧ engine.stepRest.cleared = engine.cleared
    rw [hself]
    exact ⟨h, rfl⟩
  | commit =>
    refine ⟨?_, engine.cleared_stepCommit⟩
    simp only [stepCommit]
    split
    · exact h
    · exact ⟨h.running, h.opened, h.measured⟩

private theorem run (h : engine.Quiet) {schedule : List Task}
    (hschedule : ∀ task ∈ schedule, task.measures = false) :
    (engine.run schedule).Quiet ∧ (engine.run schedule).cleared = engine.cleared := by
  induction schedule generalizing engine with
  | nil => exact ⟨h, rfl⟩
  | cons task schedule ih =>
    obtain ⟨hstep, hcleared⟩ := h.step (hschedule task List.mem_cons_self)
    obtain ⟨hrun, hrest⟩ := ih hstep fun other hother =>
      hschedule other (List.mem_cons_of_mem _ hother)
    exact ⟨hrun, hrest.trans hcleared⟩

private theorem settle_eq (h : engine.Quiet) : engine.settle = engine.cleared := by
  obtain ⟨ingested, consumer, hintake, hposting, -, hsettle⟩ := exists_settle_eq h.running
  have hidle : engine.settle.cleared = engine.settle := by
    rw [hsettle]
    exact cleared_of_idle hintake hposting rfl
  have hingesting : ∀ task ∈ List.replicate (2 * engine.intake.length + 1) Task.ingestion,
      task.measures = false := by
    intro task htask
    rw [List.eq_of_mem_replicate htask]
    rfl
  obtain ⟨hfirst, hcleared⟩ := h.run hingesting
  have hreporting : ∀ task ∈ [Task.report, .rest], task.measures = false := by decide
  obtain ⟨hsecond, hreported⟩ := hfirst.run hreporting
  have hcommitting : ∀ jobs, ∀ task ∈ List.replicate jobs Task.commit, task.measures = false := by
    intro jobs task htask
    rw [List.eq_of_mem_replicate htask]
    rfl
  obtain ⟨-, hlast⟩ := hsecond.run (hcommitting _)
  rw [← hidle]
  exact (hlast.trans hreported).trans hcleared

end Quiet

/-! ### Calls with steps in between -/

private theorem cleared_intake_concat (engine : Engine α) (event : IngestEvent) :
    ({ engine with intake := engine.intake ++ [event] } : Engine α).cleared =
      { engine.cleared with
        ingestion := (engine.cleared.ingestion.handle engine.groups engine.route event).1
        consumer := engine.cleared.consumer.run
          (engine.cleared.ingestion.handle engine.groups engine.route event).2.job?.toList } := by
  generalize hhandled : engine.cleared.ingestion.handle engine.groups engine.route event = handled
  have hopen : engine.ingested = (engine.ingested.1, ⟨engine.ingested.2.jobs, true⟩) :=
    Ingestion.run_open engine.groups engine.route engine.intake engine.ingestion []
  have hlast : Ingestion.run engine.groups engine.route [event] engine.ingested.1
      ⟨engine.ingested.2.jobs, true⟩ =
        (handled.1, ⟨engine.ingested.2.jobs ++ handled.2.job?.toList, true⟩) := by
    rw [Ingestion.run_cons, Ingestion.run]
    exact congrArg (fun handled : Ingestion α × Posting α =>
      (handled.1, (⟨engine.ingested.2.jobs ++ handled.2.job?.toList, true⟩ : CommitQueue α))) hhandled
  have hingested : ({ engine with intake := engine.intake ++ [event] } : Engine α).ingested =
      (handled.1, ⟨engine.ingested.2.jobs ++ handled.2.job?.toList, true⟩) := by
    rw [← hlast]
    have happend := Ingestion.run_append engine.groups engine.route engine.intake [event]
      engine.ingestion []
    refine happend.trans ?_
    exact congrArg (fun worked : Ingestion α × CommitQueue α =>
      Ingestion.run engine.groups engine.route [event] worked.1 worked.2) hopen
  have hconsumer : engine.consumer.run
      (engine.waiting ++ (engine.ingested.2.jobs ++ handled.2.job?.toList)) =
        engine.cleared.consumer.run handled.2.job?.toList := by
    rw [← List.append_assoc, Consumer.run_append]
    rfl
  rw [cleared, hingested]
  simp only [cleared] at hconsumer ⊢
  rw [← hconsumer]
  rfl

private theorem cleared_submit {engine : Engine α} (hopen : engine.intakeOpen = true)
    (event : IngestEvent) : (engine.submit event).1.cleared =
      { engine.cleared with
        ingestion := (engine.cleared.ingestion.handle engine.groups engine.route event).1
        consumer := engine.cleared.consumer.run
          (engine.cleared.ingestion.handle engine.groups engine.route event).2.job?.toList } := by
  rw [submit, if_pos hopen]
  exact engine.cleared_intake_concat event

private theorem Quiet.flush_eq {engine : Engine α} (h : engine.Quiet) :
    engine.flush.1 = { engine.cleared with
      consumer := engine.cleared.consumer.step (.barrier engine.tickets)
      tickets := engine.tickets + 1 } := by
  have hasked : engine.asked.Quiet := ⟨h.running, h.opened, h.measured⟩
  have hcleared := engine.cleared_intake_concat (.flush engine.tickets)
  have htickets : engine.asked.cleared =
      { ({ engine with intake := engine.intake ++ [.flush engine.tickets] } : Engine α).cleared with
        tickets := engine.tickets + 1 } := rfl
  rw [flush_of_open h.opened, hasked.settle_eq, htickets, hcleared]
  rfl

/-- Two quiet engines that come to the same once they have caught up. -/
structure Agree (engine other : Engine α) : Prop where
  left : engine.Quiet
  right : other.Quiet
  cleared_eq : engine.cleared = other.cleared

namespace Agree

variable {engine other : Engine α}

private theorem refl (h : engine.Quiet) : engine.Agree engine := ⟨h, h, rfl⟩

private theorem submit (h : engine.Agree other) (event : IngestEvent) :
    (engine.submit event).1.Agree (other.submit event).1 := by
  have hquiet : ∀ {own : Engine α}, own.Quiet → (own.submit event).1.Quiet := by
    intro own hown
    rw [Engine.submit, if_pos hown.opened]
    exact ⟨hown.running, hown.opened, hown.measured⟩
  have hgroups : engine.groups = other.groups := congrArg (·.groups) h.cleared_eq
  have hroute : engine.route = other.route := congrArg (·.route) h.cleared_eq
  refine ⟨hquiet h.left, hquiet h.right, ?_⟩
  rw [cleared_submit h.left.opened, cleared_submit h.right.opened, h.cleared_eq, hgroups, hroute]

private theorem setVolume (h : engine.Agree other) (counters : VolumeCounters) :
    (engine.setVolume counters).Agree (other.setVolume counters) := by
  have hcleared : ∀ own : Engine α,
      (own.setVolume counters).cleared = own.cleared.setVolume counters := fun _ => rfl
  refine ⟨⟨h.left.running, h.left.opened, h.left.measured⟩,
    ⟨h.right.running, h.right.opened, h.right.measured⟩, ?_⟩
  rw [hcleared, hcleared, h.cleared_eq]

private theorem step (h : engine.Agree other) {task : Task} (htask : task.measures = false) :
    (engine.step task).Agree other := by
  obtain ⟨hquiet, hcleared⟩ := h.left.step htask
  exact ⟨hquiet, h.right, hcleared.trans h.cleared_eq⟩

private theorem flush (h : engine.Agree other) : engine.flush.1 = other.flush.1 := by
  have htickets : engine.tickets = other.tickets := congrArg (·.tickets) h.cleared_eq
  rw [h.left.flush_eq, h.right.flush_eq, h.cleared_eq, htickets]

end Agree

/-- Calls of someone who hands over events, and steps that measure nothing. -/
inductive Call.Calm : Call → Prop
  | submit (event : IngestEvent) : Calm (.submit event)
  | setVolume (counters : VolumeCounters) : Calm (.setVolume counters)
  | step {task : Task} (htask : task.measures = false) : Calm (.step task)

def Call.isStep : Call → Bool
  | .step _ => true
  | .submit _ | .flush | .setWindow _ | .setVolume _ | .start | .stop => false

private theorem Agree.afterCalls {engine other : Engine α} (h : engine.Agree other)
    {calls : List Call} (hcalls : ∀ call ∈ calls, call.Calm) :
    (engine.afterCalls calls).Agree (other.afterCalls (calls.filter fun call => !call.isStep)) := by
  induction calls generalizing engine other with
  | nil => exact h
  | cons call calls ih =>
    have hrest : ∀ later ∈ calls, later.Calm := fun later hlater =>
      hcalls later (List.mem_cons_of_mem _ hlater)
    cases hcalls call List.mem_cons_self with
    | submit event => exact ih (h.submit event) hrest
    | setVolume counters => exact ih (h.setVolume counters) hrest
    -- the other engine makes no such step, and need not
    | step htask => exact ih (h.step htask) hrest

/-- Once a quiet engine is flushed, it is as if all calls had been made at once. -/
theorem Quiet.afterCalls_flush {engine : Engine α} (h : engine.Quiet) {calls : List Call}
    (hcalls : ∀ call ∈ calls, call.Calm) :
    engine.afterCalls (calls ++ [.flush]) =
      engine.afterCalls ((calls.filter fun call => !call.isStep) ++ [.flush]) := by
  rw [afterCalls_append, afterCalls_append]
  exact ((Agree.refl h).afterCalls hcalls).flush

end Engine

end NodeTelemetry
