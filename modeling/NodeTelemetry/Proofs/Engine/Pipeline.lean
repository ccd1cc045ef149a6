import NodeTelemetry.Proofs.Dashboard.Alignment
import NodeTelemetry.Proofs.Dashboard.Chronicle
import NodeTelemetry.Proofs.Engine.Run

/-!
The way of the samples through an engine. Whatever the interleaving of the tasks, the batches that were
shown, wait for the consumer or are about to be posted form a chronicle of the samples that ingestion
has worked on, as long as no rollback is asked for.
-/

set_option autoImplicit false

namespace NodeTelemetry

open Scalar (LawfulRounding LawfulOrder Nonneg)

variable {α : Type}

/-! ### Batches that are of no block -/

private theorem Batch.neutral_of_subjects [Scalar α] {batch : Batch α}
    (hkind : batch.blockHeight? = none)
    (h : ∀ update ∈ batch.updates, ∃ metric : Metric, metric ∉ Metric.alongHeights ∧
      update.subject = metric.name) : batch.Neutral := by
  have hother : ∀ metric ∈ Metric.alongHeights, ∀ update ∈ batch.updates,
      update.subject ≠ metric.name := by
    intro metric hmetric update hupdate hsubject
    obtain ⟨other, hother, hname⟩ := h update hupdate
    rw [hname] at hsubject
    exact hother (Metric.name_injective hsubject ▸ hmetric)
  refine ⟨hkind, fun metric hmetric => pointsFor_eq_nil (hother metric hmetric),
    fun metric hmetric readout hreadout hname => ?_⟩
  obtain ⟨update, hupdate, hsubject⟩ := exists_subject_of_readout hreadout
  exact hother metric hmetric update hupdate (hsubject.trans hname)

variable [Scalar α]

theorem QueueStatus.exists_subject {status : QueueStatus} {update : Update α}
    (h : update ∈ (Batch.ofQueueStatus status).updates) :
    ∃ metric : Metric, metric.descriptor.group = .queue ∧ update.subject = metric.name := by
  simp only [Batch.ofQueueStatus, List.mem_cons, List.not_mem_nil, or_false] at h
  rcases h with rfl | rfl | rfl
  · exact ⟨.queueVerified, rfl, rfl⟩
  · exact ⟨.queueUnverified, rfl, rfl⟩
  · exact ⟨.cacheFullness, rfl, rfl⟩

theorem Batch.neutral_ofQueueStatus (status : QueueStatus) :
    (Batch.ofQueueStatus status : Batch α).Neutral := by
  refine neutral_of_subjects rfl fun update hupdate => ?_
  obtain ⟨metric, hqueue, hsubject⟩ := QueueStatus.exists_subject hupdate
  have hother : ∀ own ∈ Metric.alongHeights, own.descriptor.group ≠ .queue := by decide
  exact ⟨metric, fun hmetric => hother metric hmetric hqueue, hsubject⟩

namespace RateMeter

open NodeTelemetry.Computation (fed fed_of_mem fed_of_not_mem yields_pure yields_feed)

theorem subject_mem_alongTime {now : VolumeSnapshot} {upload download : Accumulator α}
    {update : Update α} (h : update ∈ points now upload download ++ readouts now upload download) :
    ∃ metric ∈ Metric.alongTime, update.subject = metric.name := by
  rw [Metric.alongTime_eq]
  simp only [List.mem_cons, List.not_mem_nil, or_false, exists_eq_or_imp, exists_eq_left]
  rcases List.mem_append.1 h with h | h
  · simp only [points] at h
    split at h
    · simp only [List.mem_cons, List.not_mem_nil, or_false] at h
      rcases h with rfl | rfl | rfl | rfl <;> simp [Update.subject]
    · cases h
  · simp only [readouts, List.mem_cons, List.not_mem_nil, or_false] at h
    rcases h with rfl | rfl | rfl | rfl <;>
      simp only [Update.subject, Readout.render_name, Metric.descriptor_name, true_or, or_true]

theorem neutral_network (now : VolumeSnapshot) (upload download : Accumulator α) :
    Batch.Neutral ⟨.network now.observedAt,
      points now upload download ++ readouts now upload download⟩ := by
  refine Batch.neutral_of_subjects rfl fun update hupdate => ?_
  obtain ⟨metric, hmetric, hsubject⟩ := subject_mem_alongTime hupdate
  have hother : ∀ own ∈ Metric.alongTime, own ∉ Metric.alongHeights := by decide
  exact ⟨metric, hother metric hmetric, hsubject⟩

def fedBy (rate : TransferRate α) : List (Metric × α) :=
  [(.uploadSpeed, rate.upload), (.downloadSpeed, rate.download)]

/-- The rate and what is shown of it, by the accumulators after it. -/
def shown (now : VolumeSnapshot) (rate : TransferRate α) (acc : Metric → Accumulator α) :
    RateSample α :=
  ⟨rate, .network now.observedAt, points now (acc .uploadSpeed) (acc .downloadSpeed) ++
    readouts now (acc .uploadSpeed) (acc .downloadSpeed)⟩

theorem tick_yields {meter : RateMeter} (hview : meter.view = .network) (now : VolumeSnapshot)
    (acc : Metric → Accumulator α) :
    (meter.tick (α := α) now).2.Yields acc none acc ∨
      ∃ rate, (meter.tick now).2.Yields acc (some (shown now rate (fed acc (fedBy rate))))
        (fed acc (fedBy rate)) := by
  unfold tick
  rw [hview]
  cases meter.latest.bind fun before => TransferRate.between? (α := α) before now with
  | none => exact .inl (yields_pure none)
  | some rate =>
    let first := Function.update acc .uploadSpeed ((acc .uploadSpeed).insert rate.upload)
    have hupload : fed acc (fedBy rate) .uploadSpeed = (acc .uploadSpeed).insert rate.upload :=
      fed_of_mem (by simp [fedBy]) (by simp [fedBy])
    have hdownload : fed acc (fedBy rate) .downloadSpeed =
        (first .downloadSpeed).insert rate.download := by
      rw [fedBy, fed, fed, fed, Function.update_self]
    have hrecord : (record .network now rate).Yields acc (shown now rate (fed acc (fedBy rate)))
        (fed acc (fedBy rate)) := by
      rw [shown, hupload, hdownload]
      exact (yields_feed (by decide) _).bind ((yields_feed (by decide) _).bind (yields_pure _))
    exact .inr ⟨rate, hrecord.bind (yields_pure _)⟩

theorem exists_tick_yields {meter : RateMeter} (hview : meter.view = .network)
    (now : VolumeSnapshot) (acc : Metric → Accumulator α) :
    ∃ result acc', (meter.tick (α := α) now).2.Yields acc result acc' ∧
      (∀ sample, result = some sample → sample.batch.Neutral) ∧
      ∀ metric : Metric, metric.descriptor.group ≠ .network → acc' metric = acc metric := by
  rcases tick_yields hview now acc with hnone | ⟨rate, hrate⟩
  · exact ⟨none, acc, hnone, fun _ h => (nomatch h), fun _ _ => rfl⟩
  · refine ⟨_, _, hrate, fun sample hsample => ?_, fun metric hgroup => fed_of_not_mem fun hmem => ?_⟩
    · cases hsample
      exact neutral_network _ _ _
    · have hnetwork : ∀ own ∈ [Metric.uploadSpeed, .downloadSpeed],
          own.descriptor.group = .network := by
        decide
      exact hgroup (hnetwork metric hmem)

end RateMeter

theorem Ingestion.exists_handle_sample (ingestion : Ingestion α) (groups : List (Group α))
    (route : ErrorRoute) (block : BlockSample) (receivedAt : Int64) :
    ∃ counted : Ingestion α,
      ingestion.handle groups route (.sample (some (block, receivedAt))) =
          ((counted.process groups route block receivedAt).1,
            .job (.apply (counted.process groups route block receivedAt).2)) ∧
        counted.accumulators = ingestion.accumulators :=
  ⟨_, rfl, rfl⟩

/-! ### The state of the pipeline -/

def CommitJob.batch? : CommitJob α → Option (Batch α)
  | .apply batch => some batch
  | .truncate _ | .barrier _ => none

def Notice.batch? : Notice α → Option (Batch α)
  | .applied batch => some batch
  | .truncated _ _ => none

def IngestEvent.sample? : IngestEvent → Option BlockSample
  | .sample (some (block, _)) => some block
  | .sample none | .queueStatus _ | .blockPopped _ | .flush _ => none

namespace Engine

theorem stepIngestion_of_intake {engine : Engine α} {event : IngestEvent} {later : List IngestEvent}
    (hposting : engine.posting = none) (hintake : engine.intake = event :: later) :
    engine.stepIngestion = { engine with
      intake := later
      ingestion := (engine.ingestion.handle engine.groups engine.route event).1
      posting := (engine.ingestion.handle engine.groups engine.route event).2.job? } := by
  rw [stepIngestion, hposting, hintake]

def shownBatches (engine : Engine α) : List (Batch α) :=
  engine.consumer.shown.filterMap Notice.batch?

/-- The jobs that wait for the consumer or are about to be posted by ingestion, oldest first. -/
def waiting (engine : Engine α) : List (CommitJob α) := engine.commits ++ engine.posting.toList

omit [Scalar α] in
theorem waiting_of_none {engine : Engine α} (hposting : engine.posting = none) :
    engine.waiting = engine.commits := by
  rw [waiting, hposting]
  exact List.append_nil _

/-- The current averages of the block metrics are numbers from zero on. -/
def AveragesNonneg (engine : Engine α) : Prop :=
  ∀ metric ∈ Metric.averaged, ∀ acc ∈ engine.accumulators.get? metric.name, Nonneg acc.mean

instance [DecidableEq α] (engine : Engine α) : Decidable engine.AveragesNonneg :=
  inferInstanceAs (Decidable (∀ metric ∈ Metric.averaged, ∀ acc ∈ _, _))

/-- The samples that were accepted are those on record and those that wait; the batches of the former
are shown or wait in their order, and the accumulators recall what they have made. -/
structure InStep (sizes : HistorySizes) (engine : Engine α) (samples : List BlockSample)
    (records : List (Record α)) (acc : Metric → Accumulator α) : Prop where
  groups : engine.groups = Group.blockGroups
  meter : engine.meter.view = .network
  shows : engine.accumulators.Shows acc
  recalls : ∀ metric ∈ Metric.averaged,
    (acc metric).Recalls sizes.chart (records.map (Record.mean metric))
  remembered : Record.Remembered sizes.chart records
  samples_eq : samples =
    (records.map (·.sample)).reverse ++ engine.intake.filterMap IngestEvent.sample?
  rollbackFree : ∀ event ∈ engine.intake, ∀ height, event ≠ .blockPopped height
  jobs : ∀ job ∈ engine.waiting, ∀ height, job ≠ .truncate height
  chronicle : Chronicle (engine.shownBatches ++ engine.waiting.filterMap CommitJob.batch?) records
  measured : ∀ job ∈ engine.measured, ∃ batch, job = .apply batch ∧ batch.Neutral
  dashboard : engine.dashboard = Dashboard.ofBatches sizes engine.shownBatches

namespace InStep

variable {sizes : HistorySizes} {engine : Engine α} {samples : List BlockSample}
  {records : List (Record α)} {acc : Metric → Accumulator α}

/-! ### Requests -/

private theorem submit (h : InStep sizes engine samples records acc) {event : IngestEvent}
    (hevent : ∀ height, event ≠ .blockPopped height) :
    InStep sizes { engine with intake := engine.intake ++ [event] }
      (samples ++ event.sample?.toList) records acc where
  groups := h.groups
  meter := h.meter
  shows := h.shows
  recalls := h.recalls
  remembered := h.remembered
  samples_eq := by
    rw [h.samples_eq, List.filterMap_append, List.append_assoc]
    congr 2
  rollbackFree := by
    intro other hother
    rcases List.mem_append.1 hother with hother | hother
    · exact h.rollbackFree other hother
    · rw [List.mem_singleton.1 hother]
      exact hevent
  jobs := h.jobs
  chronicle := h.chronicle
  measured := h.measured
  dashboard := h.dashboard

private theorem resize (h : InStep sizes engine samples records acc) {window : Nat}
    {resized : Engine α} (hresized : engine.setWindow window = .ok resized) :
    InStep sizes resized samples records fun metric => (acc metric).resized window := by
  unfold setWindow at hresized
  cases hset : engine.accumulators.setWindow window with
  | error error =>
    rw [hset] at hresized
    cases hresized
  | ok set =>
    rw [hset] at hresized
    cases hresized
    exact { h with
      shows := h.shows.setWindow hset
      recalls := fun metric hmetric => (h.recalls metric hmetric).resized window }

/-! ### Tasks -/

private theorem post (h : InStep sizes engine samples records acc)
    (hposting : engine.posting = none) {job : Option (CommitJob α)}
    (hjob : ∀ own ∈ job, (∀ height, own ≠ .truncate height) ∧
      ∀ batch ∈ own.batch?, batch.Neutral) :
    InStep sizes { engine with posting := job } samples records acc := by
  have hwaiting := waiting_of_none hposting
  have hjobs : ∀ own ∈ engine.commits ++ job.toList, ∀ height, own ≠ .truncate height := by
    intro own hown
    rcases List.mem_append.1 hown with hown | hown
    · exact h.jobs own (hwaiting ▸ hown)
    · exact (hjob own (Option.mem_toList.1 hown)).1
  have hchronicle : Chronicle (engine.shownBatches ++
      (engine.commits ++ job.toList).filterMap CommitJob.batch?) records := by
    have hbefore := h.chronicle
    rw [hwaiting] at hbefore
    rw [List.filterMap_append, ← List.append_assoc]
    cases job with
    | none => rwa [Option.toList_none, List.filterMap_nil, List.append_nil]
    | some own =>
      cases hbatch : own.batch? with
      | none =>
        rw [Option.toList_some, List.filterMap_cons, hbatch]
        exact (List.append_nil _).symm ▸ hbefore
      | some batch =>
        rw [Option.toList_some, List.filterMap_cons, hbatch]
        exact hbefore.other ((hjob own rfl).2 batch hbatch)
  exact { h with jobs := hjobs, chronicle := hchronicle }

private theorem take (h : InStep sizes engine samples records acc) {event : IngestEvent}
    {later : List IngestEvent} (hintake : engine.intake = event :: later)
    (hsample : event.sample? = none) (figures : IngestFigures) :
    InStep sizes { engine with
        intake := later
        ingestion := { engine.ingestion with figures } } samples records acc := by
  have hsamples : samples =
      (records.map (·.sample)).reverse ++ later.filterMap IngestEvent.sample? := by
    rw [h.samples_eq, hintake, List.filterMap_cons, hsample]
  have hrollbacks : ∀ other ∈ later, ∀ height, other ≠ .blockPopped height := by
    intro other hother
    refine h.rollbackFree other ?_
    rw [hintake]
    exact List.mem_cons_of_mem _ hother
  exact { h with samples_eq := hsamples, rollbackFree := hrollbacks }

private theorem stepMeasurement (h : InStep sizes engine samples records acc) (now : Int64) :
    ∃ acc', InStep sizes (engine.stepMeasurement now) samples records acc' := by
  unfold Engine.stepMeasurement
  split
  · obtain ⟨result, acc', hyields, hneutral, hkept⟩ :=
      RateMeter.exists_tick_yields h.meter ⟨engine.volume, now⟩ acc
    obtain ⟨set, hrun, hshows⟩ := hyields engine.accumulators h.shows
    have hrecalls : ∀ metric ∈ Metric.averaged,
        (acc' metric).Recalls sizes.chart (records.map (Record.mean metric)) := by
      intro metric hmetric
      rw [hkept metric (Metric.group_of_averaged hmetric)]
      exact h.recalls metric hmetric
    refine ⟨acc', ?_⟩
    simp only [hrun]
    cases result with
    | none => exact { h with shows := hshows, recalls := hrecalls }
    | some sample =>
      have hmeasured : ∀ job ∈ some (CommitJob.apply sample.batch), ∃ batch,
          job = .apply batch ∧ batch.Neutral := by
        rintro job ⟨⟩
        exact ⟨sample.batch, rfl, hneutral sample rfl⟩
      exact { h with shows := hshows, recalls := hrecalls, measured := hmeasured }
  · exact ⟨acc, h⟩

private theorem stepReport (h : InStep sizes engine samples records acc) :
    InStep sizes engine.stepReport samples records acc := by
  unfold Engine.stepReport
  cases hmeasured : engine.measured with
  | none => exact h
  | some job =>
    obtain ⟨batch, rfl, hneutral⟩ := h.measured job hmeasured
    have hjobs : ∀ job ∈ engine.commits ++ [CommitJob.apply batch] ++ engine.posting.toList,
        ∀ height, job ≠ .truncate height := by
      intro job hjob height
      simp only [List.mem_append, List.mem_singleton] at hjob
      rcases hjob with (hjob | rfl) | hjob
      · exact h.jobs job (List.mem_append_left _ hjob) height
      · exact fun heq => nomatch heq
      · exact h.jobs job (List.mem_append_right _ hjob) height
    have hchronicle : Chronicle (engine.shownBatches ++
        (engine.commits ++ [CommitJob.apply batch] ++ engine.posting.toList).filterMap CommitJob.batch?)
        records := by
      have hbefore := h.chronicle
      rw [waiting, List.filterMap_append, ← List.append_assoc] at hbefore
      have hafter := hbefore.insert hneutral
      simpa [CommitJob.batch?, List.append_assoc] using hafter
    exact { h with
      jobs := hjobs
      chronicle := hchronicle
      measured := fun job hjob => nomatch hjob }

private theorem stepRest (h : InStep sizes engine samples records acc) :
    InStep sizes engine.stepRest samples records acc := by
  unfold Engine.stepRest
  split
  · exact h
  · exact { h with }

private theorem stepCommit (h : InStep sizes engine samples records acc) :
    InStep sizes engine.stepCommit samples records acc := by
  unfold Engine.stepCommit
  cases hcommits : engine.commits with
  | nil => exact h
  | cons job later =>
    have hwaiting : engine.waiting = job :: (later ++ engine.posting.toList) := by
      rw [waiting, hcommits, List.cons_append]
    have hchronicle := h.chronicle
    have hjobs := h.jobs
    rw [hwaiting] at hchronicle hjobs
    have hlater : ∀ job ∈ later ++ engine.posting.toList, ∀ height, job ≠ .truncate height :=
      fun job hjob => hjobs job (List.mem_cons_of_mem _ hjob)
    cases job with
    | truncate height => exact absurd rfl (hjobs (.truncate height) List.mem_cons_self height)
    | barrier ticket => exact { h with jobs := hlater, chronicle := hchronicle }
    | apply batch =>
      let shown := engine.consumer.shown ++ [Notice.applied batch]
      have hshown : shown.filterMap Notice.batch? = engine.shownBatches ++ [batch] :=
        List.filterMap_append
      refine { h with jobs := hlater, chronicle := ?_, dashboard := ?_ }
      · show Chronicle (shown.filterMap Notice.batch? ++
          (later ++ engine.posting.toList).filterMap CommitJob.batch?) records
        rw [hshown, List.append_assoc]
        exact hchronicle
      · show engine.dashboard.apply batch = .ofBatches sizes (shown.filterMap Notice.batch?)
        rw [hshown, h.dashboard, Dashboard.ofBatches, Dashboard.ofBatches, Dashboard.applyAll,
          Dashboard.applyAll, List.foldl_append]
        rfl

variable [LawfulRounding α]

private theorem recalls_fed (h : InStep sizes engine samples records acc)
    {feeds : List (Metric × α)} (hfeeds : feeds.map (·.1) = Metric.fedBySample) {record : Record α}
    (hrecord : record.acc = Computation.fed acc feeds)
    (hmeans : ∀ metric ∈ Metric.averaged, Nonneg (record.mean metric)) :
    ∀ metric ∈ Metric.averaged,
      (record.acc metric).Recalls sizes.chart ((record :: records).map (Record.mean metric)) := by
  intro metric hmetric
  obtain ⟨value, hvalue⟩ : ∃ value, record.acc metric = (acc metric).insert value := by
    rw [hrecord]
    refine Computation.exists_fed_eq_insert ?_ ?_
    · rw [hfeeds]
      decide
    · rw [hfeeds]
      exact Metric.fed_of_averaged hmetric
  have hmean : record.mean metric = ((acc metric).insert value).mean := by
    rw [← hvalue]
    rfl
  rw [hvalue, List.map_cons, hmean]
  refine (h.recalls metric hmetric).insert fun mean hmem => ?_
  rcases List.mem_cons.1 hmem with rfl | hmem
  · rw [← hmean]
    exact (hmeans metric hmetric).isNumber
  · exact (h.remembered.nonneg hmetric mean hmem).isNumber

private theorem work (h : InStep sizes engine samples records acc)
    (hposting : engine.posting = none)
    {block : BlockSample} {receivedAt : Int64} {later : List IngestEvent}
    (hintake : engine.intake = .sample (some (block, receivedAt)) :: later)
    (hnonneg : engine.stepIngestion.AveragesNonneg) :
    ∃ records acc, InStep sizes engine.stepIngestion samples records acc := by
  obtain ⟨input, hhandle, hinput⟩ :=
    engine.ingestion.exists_handle_sample Group.blockGroups engine.route block receivedAt
  have hshowsInput : input.accumulators.Shows acc := hinput ▸ h.shows
  obtain ⟨feeds, hfeeds, hshows, hbatch⟩ :=
    Group.exists_process_blockGroups hshowsInput engine.route block receivedAt
  generalize input.process Group.blockGroups engine.route block receivedAt = result
    at hhandle hshows hbatch
  let record : Record α := ⟨block, Computation.fed acc feeds⟩
  have hrecord : record.batch = result.2 := hbatch.symm
  have hstep : engine.stepIngestion = { engine with
      intake := later
      ingestion := result.1
      posting := some (.apply record.batch) } := by
    rw [stepIngestion_of_intake hposting hintake, h.groups, hhandle, hrecord]
    rfl
  have hfed : ∀ metric ∈ Metric.averaged,
      engine.stepIngestion.accumulators.get? metric.name = some (record.acc metric) := by
    intro metric hmetric
    rw [hstep]
    exact hshows.get? (Metric.accumulated_of_averaged hmetric)
  have hmeans : ∀ metric ∈ Metric.averaged, Nonneg (record.mean metric) :=
    fun metric hmetric => hnonneg metric hmetric _ (hfed metric hmetric)
  have hacc : record.acc = Computation.fed acc feeds := rfl
  have hrecalls := h.recalls_fed hfeeds.metrics hacc hmeans
  have hremembered : Record.Remembered sizes.chart (record :: records) :=
    .cons h.remembered hrecalls hmeans
  refine ⟨record :: records, record.acc, ?_⟩
  rw [hstep]
  have hchronicle := h.chronicle
  have hjobs := h.jobs
  rw [waiting_of_none hposting] at hchronicle hjobs
  constructor
  · exact h.groups
  · exact h.meter
  · exact hshows
  · exact hrecalls
  · exact hremembered
  · rw [h.samples_eq, hintake, List.map_cons, List.reverse_cons, List.append_assoc]
    rfl
  · intro event hevent
    refine h.rollbackFree event ?_
    rw [hintake]
    exact List.mem_cons_of_mem _ hevent
  · intro job hjob height
    rcases List.mem_append.1 hjob with hjob | hjob
    · exact hjobs job hjob height
    · rw [List.mem_singleton.1 hjob]
      exact fun heq => nomatch heq
  · rw [waiting, List.filterMap_append, ← List.append_assoc]
    exact hchronicle.block record
  · exact h.measured
  · exact h.dashboard

private theorem stepIngestion (h : InStep sizes engine samples records acc)
    (hnonneg : engine.stepIngestion.AveragesNonneg) :
    ∃ records acc, InStep sizes engine.stepIngestion samples records acc := by
  cases hposting : engine.posting with
  | some job =>
    have hstep : engine.stepIngestion =
        { engine with commits := engine.commits ++ [job], posting := none } := by
      rw [Engine.stepIngestion, hposting]
    have hwaiting : engine.waiting = (engine.commits ++ [job]) ++ [] := by
      rw [waiting, hposting, List.append_nil]
      rfl
    have hjobs := h.jobs
    have hchronicle := h.chronicle
    rw [hwaiting] at hjobs hchronicle
    rw [hstep]
    exact ⟨records, acc, { h with jobs := hjobs, chronicle := hchronicle }⟩
  | none =>
    cases hintake : engine.intake with
    | nil =>
      have hstep : engine.stepIngestion = engine := by
        rw [Engine.stepIngestion, hposting, hintake]
      rw [hstep]
      exact ⟨records, acc, h⟩
    | cons event later =>
      have hstep := stepIngestion_of_intake hposting hintake
      cases event with
      | sample taken =>
        cases taken with
        | some taken => exact h.work hposting hintake hnonneg
        | none =>
          rw [hstep]
          exact ⟨records, acc, (h.take hintake rfl _).post hposting fun own hown => nomatch hown⟩
      | queueStatus status =>
        rw [hstep]
        refine ⟨records, acc, (h.take hintake rfl _).post hposting fun own hown => ?_⟩
        cases hown
        refine ⟨fun height heq => (nomatch heq), fun batch hbatch => ?_⟩
        cases hbatch
        exact Batch.neutral_ofQueueStatus status
      | blockPopped height =>
        refine absurd rfl (h.rollbackFree (.blockPopped height) ?_ height)
        rw [hintake]
        exact List.mem_cons_self
      | flush ticket =>
        rw [hstep]
        refine ⟨records, acc, (h.take hintake rfl engine.ingestion.figures).post hposting
          fun own hown => ?_⟩
        cases hown
        exact ⟨fun height heq => (nomatch heq), fun batch hbatch => (nomatch hbatch)⟩

private theorem step (h : InStep sizes engine samples records acc) (task : Task)
    (hnonneg : (engine.step task).AveragesNonneg) :
    ∃ records acc, InStep sizes (engine.step task) samples records acc := by
  unfold Engine.step at hnonneg ⊢
  by_cases hrunning : engine.phase = .running
  · rw [if_pos hrunning] at hnonneg ⊢
    cases task with
    | ingestion => exact h.stepIngestion hnonneg
    | measurement now =>
      obtain ⟨acc', h'⟩ := h.stepMeasurement now
      exact ⟨records, acc', h'⟩
    | report => exact ⟨records, acc, h.stepReport⟩
    | rest => exact ⟨records, acc, h.stepRest⟩
    | commit => exact ⟨records, acc, h.stepCommit⟩
  · rw [if_neg hrunning]
    exact ⟨records, acc, h⟩

private theorem make (h : InStep sizes engine samples records acc) {move : Move}
    (hrollbacks : ∀ event ∈ engine.arriving move, ∀ height, event ≠ .blockPopped height)
    (hnonneg : (engine.make move).AveragesNonneg) :
    ∃ records acc, InStep sizes (engine.make move)
      (samples ++ (engine.arriving move).filterMap IngestEvent.sample?) records acc := by
  have hkept : samples ++ List.filterMap IngestEvent.sample? [] = samples := List.append_nil _
  cases move with
  | submit event =>
    by_cases hopen : engine.intakeOpen = true
    · have hmade : engine.make (.submit event) =
          { engine with intake := engine.intake ++ [event] } := by
        simp [Engine.make, Engine.submit, hopen]
      have harriving : engine.arriving (.submit event) = [event] := if_pos hopen
      rw [harriving] at hrollbacks
      rw [hmade, harriving]
      exact ⟨records, acc, h.submit (hrollbacks event (List.mem_singleton_self event))⟩
    · have hmade : engine.make (.submit event) = engine := by
        simp [Engine.make, Engine.submit, hopen]
      rw [hmade, arriving, if_neg hopen, hkept]
      exact ⟨records, acc, h⟩
  | ask =>
    by_cases hopen : engine.intakeOpen = true
    · have hmade : engine.make .ask = { engine with
          intake := engine.intake ++ [.flush engine.tickets]
          tickets := engine.tickets + 1 } := by
        simp [Engine.make, Engine.submit, hopen]
      have harriving : engine.arriving .ask = [.flush engine.tickets] := if_pos hopen
      have hflush : ∀ height, IngestEvent.flush engine.tickets ≠ .blockPopped height := by
        intro height heq
        cases heq
      have hasked := h.submit hflush
      rw [hmade, harriving]
      exact ⟨records, acc, { hasked with }⟩
    · have hmade : engine.make .ask = engine := by
        simp [Engine.make, hopen]
      rw [hmade, arriving, if_neg hopen, hkept]
      exact ⟨records, acc, h⟩
  | setWindow window =>
    rw [arriving, hkept, Engine.make]
    cases hresized : engine.setWindow window with
    | ok resized => exact ⟨records, _, h.resize hresized⟩
    | error error => exact ⟨records, acc, h⟩
  | setVolume counters =>
    rw [arriving, hkept]
    exact ⟨records, acc, { h with }⟩
  | start =>
    rw [arriving, hkept, Engine.make]
    unfold Engine.start
    by_cases hwaiting : engine.phase = .waiting
    · rw [if_pos hwaiting]
      exact ⟨records, acc, { h with }⟩
    · rw [if_neg hwaiting]
      exact ⟨records, acc, h⟩
  | step task =>
    rw [arriving, hkept]
    exact h.step task hnonneg
  | close =>
    rw [arriving, hkept]
    exact ⟨records, acc, { h with }⟩
  | finish =>
    rw [arriving, hkept]
    exact ⟨records, acc, { h with }⟩

/-! ### Runs -/

theorem after (h : InStep sizes engine samples records acc) (moves : List Move)
    (hrollbacks : ∀ event ∈ engine.accepted moves, ∀ height, event ≠ .blockPopped height)
    (hnonneg : ∀ first, first <+: moves → (engine.after first).AveragesNonneg) :
    ∃ records acc, InStep sizes (engine.after moves)
      (samples ++ (engine.accepted moves).filterMap IngestEvent.sample?) records acc := by
  induction moves using List.reverseRecOn with
  | nil => exact ⟨records, acc, (List.append_nil samples).symm ▸ h⟩
  | append_singleton moves move ih =>
    rw [accepted_append, accepted_singleton] at hrollbacks
    obtain ⟨records, acc, h⟩ := ih
      (fun event hevent => hrollbacks event (List.mem_append_left _ hevent))
      (fun first hfirst => hnonneg first (hfirst.trans (List.prefix_append moves [move])))
    rw [accepted_append, accepted_singleton, List.filterMap_append, ← List.append_assoc,
      after_append, after_singleton]
    refine h.make (fun event hevent => hrollbacks event (List.mem_append_right _ hevent)) ?_
    have hlast := hnonneg (moves ++ [move]) List.prefix_rfl
    rwa [after_append, after_singleton] at hlast

end InStep

theorem EngineConfig.window_le_along {config : EngineConfig}
    (hle : config.window ≤ config.largestWindow) (axis : Axis) :
    config.window ≤ config.histories.along axis := by
  cases axis with
  | height => exact hle.trans (Nat.min_le_left _ _)
  | timestamp => exact hle.trans (Nat.min_le_right _ _)

theorem exists_build [LawfulOrder α] {config : EngineConfig} (hpos : 0 < config.window)
    (hle : config.window ≤ config.largestWindow) :
    ∃ (fresh : Engine α) (acc : Metric → Accumulator α),
      build config = .ok fresh ∧ InStep config.histories fresh [] [] acc := by
  have hfits := EngineConfig.window_le_along hle
  obtain ⟨set, hset, hshows⟩ := AccumulatorSet.exists_ofDescriptors (α := α) hpos hfits
  unfold build
  rw [hset]
  let acc : Metric → Accumulator α := fun metric =>
    .empty (config.histories.along metric.descriptor.axis) config.window hpos
      (hfits metric.descriptor.axis)
  have hrecalls : ∀ metric ∈ Metric.averaged, (acc metric).Recalls config.histories.chart [] := by
    intro metric hmetric
    have haxis : metric.descriptor.axis = .height :=
      (Metric.mem_alongHeights.1 (Metric.mem_averaged.1 hmetric).1).2
    have hchart : config.histories.along metric.descriptor.axis = config.histories.chart := by
      rw [haxis]
      rfl
    exact hchart ▸ Accumulator.recalls_empty hpos (hfits metric.descriptor.axis)
  refine ⟨_, acc, rfl, ?_⟩
  constructor
  · rfl
  · rfl
  · exact hshows
  · exact hrecalls
  · exact .nil
  · rfl
  · exact fun event hevent => nomatch hevent
  · exact fun job hjob => nomatch hjob
  · exact .nil
  · exact fun job hjob => nomatch hjob
  · rfl

end Engine

end NodeTelemetry
