import NodeTelemetry.Proofs.Dashboard.Commutation
import NodeTelemetry.Proofs.Engine.Alignment
import NodeTelemetry.Proofs.Ingestion.Completion

/-!
Traffic and the queue beside the history of the blocks. The block groups bring changes along heights
only; a measurement brings changes of traffic figures only, and a queue status those of queue figures.
So it does not matter for the dashboard when a measurement comes in.
-/

set_option autoImplicit false

namespace NodeTelemetry

variable {α : Type} [Scalar α]

namespace Batch

/-- The batch of a sample that the block groups have worked on, whatever accumulators they had. -/
def OfSample (batch : Batch α) : Prop :=
  ∃ (ingestion : Ingestion α) (route : ErrorRoute) (sample : BlockSample) (receivedAt : Int64),
    batch = (ingestion.process Group.blockGroups route sample receivedAt).2

/-- The batch of a reading of the byte counters that has yielded a rate. -/
def Measured (batch : Batch α) : Prop :=
  ∃ (meter : RateMeter) (now : VolumeSnapshot) (set : AccumulatorSet α) (sample : RateSample α),
    ((meter.tick now).2.run set).1 = .ok (some sample) ∧ batch = sample.batch

def OfQueue (batch : Batch α) : Prop := ∃ status, batch = ofQueueStatus status

variable {batch : Batch α}

private theorem OfSample.alongHeights (h : batch.OfSample) : Update.AlongHeights batch.updates := by
  obtain ⟨ingestion, route, sample, receivedAt, rfl⟩ := h
  obtain ⟨works, hgroups, houtcomes, accumulators, hprocess⟩ :=
    ingestion.exists_process_eq_gather Group.blockGroups route sample receivedAt
  have hbatch := Ingestion.gather_batch (.refl (GroupWork.completions works)) route ingestion
    sample.height accumulators
  rw [hgroups] at hbatch
  rw [hprocess, hbatch]
  refine Update.alongHeights_flatten fun updates hupdates => ?_
  obtain ⟨work, hwork, hended⟩ := List.mem_filterMap.1 hupdates
  have hgroup : work.group ∈ works.map (·.group) := List.mem_map_of_mem hwork
  rw [hgroups] at hgroup
  obtain ⟨before, houtcome⟩ := houtcomes work hwork
  unfold GroupWork.updates? at hended
  split at hended
  next own heq =>
    cases hended
    exact Group.alongHeights_of_compute hgroup (houtcome.symm.trans heq)
  next => cases hended
  next => cases hended

private theorem Measured.exists_points (h : batch.Measured) :
    ∃ (now : VolumeSnapshot) (upload download : Accumulator α), batch =
      ⟨.network now.observedAt,
        RateMeter.points now upload download ++ RateMeter.readouts now upload download⟩ := by
  obtain ⟨meter, now, set, sample, hrun, rfl⟩ := h
  obtain ⟨upload, download, hbatch⟩ := RateMeter.exists_batch_of_tick (Prod.ext hrun rfl)
  exact ⟨now, upload, download, hbatch⟩

private theorem Measured.subject (h : batch.Measured) {update : Update α}
    (hupdate : update ∈ batch.updates) :
    ∃ metric ∈ Metric.alongTime, update.subject = metric.name := by
  obtain ⟨now, upload, download, rfl⟩ := h.exists_points
  exact RateMeter.subject_mem_alongTime hupdate

private theorem OfQueue.subject (h : batch.OfQueue) {update : Update α}
    (hupdate : update ∈ batch.updates) :
    ∃ metric : Metric, metric.descriptor.group = .queue ∧ update.subject = metric.name := by
  obtain ⟨status, rfl⟩ := h
  exact QueueStatus.exists_subject hupdate

theorem Measured.neutral (h : batch.Measured) : batch.Neutral := by
  obtain ⟨now, upload, download, rfl⟩ := h.exists_points
  exact RateMeter.neutral_network now upload download

theorem OfQueue.neutral (h : batch.OfQueue) : batch.Neutral := by
  obtain ⟨status, rfl⟩ := h
  exact neutral_ofQueueStatus status

end Batch

namespace Dashboard

open Batch (Measured OfQueue OfSample)

private theorem apply_comm_of_neutral {own block : Batch α} (hown : own.Neutral)
    (hblock : Update.AlongHeights block.updates) (dashboard : Dashboard α) :
    (dashboard.apply own).apply block = (dashboard.apply block).apply own := by
  refine apply_comm hown.blockHeight (fun update hupdate other hother hsame => ?_) dashboard
  obtain ⟨metric, hmetric, hsubject⟩ := hblock other hother
  have hname : update.subject = metric.name := hsame.trans hsubject
  cases update with
  | point series x y =>
    have hmem : (⟨x, y⟩ : Point α) ∈ own.pointsFor metric.name :=
      List.mem_filterMap.2 ⟨_, hupdate, if_pos hname⟩
    rw [hown.points metric hmetric] at hmem
    cases hmem
  | readout shown =>
    exact hown.readouts metric hmetric shown (List.mem_filterMap.2 ⟨_, hupdate, rfl⟩) hname

private theorem apply_comm_of_traffic {rate queue : Batch α} (hrate : rate.Measured)
    (hqueue : queue.OfQueue) (dashboard : Dashboard α) :
    (dashboard.apply rate).apply queue = (dashboard.apply queue).apply rate := by
  refine apply_comm hrate.neutral.blockHeight (fun own hown other hother hsame => ?_) dashboard
  obtain ⟨charted, hcharted, hown⟩ := hrate.subject hown
  obtain ⟨queued, hqueued, hother⟩ := hqueue.subject hother
  have hsame : charted = queued := Metric.name_injective (hown.symm.trans (hsame.trans hother))
  have hgroup : ∀ metric ∈ Metric.alongTime, metric.descriptor.group ≠ .queue := by decide
  exact hgroup charted hcharted (hsame ▸ hqueued)

private theorem OverCatalogue.perform {dashboard : Dashboard α} (h : dashboard.OverCatalogue)
    (job : CommitJob α) : (dashboard.perform job).OverCatalogue := by
  cases job with
  | apply batch => exact h.apply batch
  | truncate height => exact h.truncate height
  | barrier ticket => exact h

private theorem perform_comm {dashboard : Dashboard α} (h : dashboard.OverCatalogue)
    {rate : Batch α} (hrate : rate.Measured) {job : CommitJob α}
    (hjob : ∀ batch ∈ job.batch?, batch.OfSample ∨ batch.OfQueue) :
    (dashboard.apply rate).perform job = (dashboard.perform job).apply rate := by
  cases job with
  | apply batch =>
    rcases hjob batch rfl with hbatch | hbatch
    · exact apply_comm_of_neutral hrate.neutral hbatch.alongHeights dashboard
    · exact apply_comm_of_traffic hrate hbatch dashboard
  | truncate height => exact congrArg Prod.fst (truncate_apply h hrate.neutral height)
  | barrier ticket => rfl

private theorem performAll_apply (dashboard : Dashboard α) (batches : List (Batch α)) :
    dashboard.performAll (batches.map .apply) = dashboard.applyAll batches :=
  List.foldl_map

/-- Measurements and queue statuses commute with the batches of samples and with rollbacks, which do the
same either way, and with each other; so however measurements come in between the other jobs, the
dashboard is in the end as if they had all come last. -/
theorem traffic_commutes {dashboard : Dashboard α} (h : dashboard.OverCatalogue) :
    (∀ own : Batch α, own.Measured ∨ own.OfQueue →
      (∀ block : Batch α, block.OfSample →
        (dashboard.apply own).apply block = (dashboard.apply block).apply own) ∧
      ∀ height, (dashboard.apply own).truncate height =
        ((dashboard.truncate height).1.apply own, (dashboard.truncate height).2)) ∧
    (∀ rate queue : Batch α, rate.Measured → queue.OfQueue →
      (dashboard.apply rate).apply queue = (dashboard.apply queue).apply rate) ∧
    ∀ (jobs : List (CommitJob α)) (rates : List (Batch α)) (schedule : List (CommitJob α)),
      (∀ job ∈ jobs, ∀ batch ∈ job.batch?, batch.OfSample ∨ batch.OfQueue) →
      (∀ rate ∈ rates, rate.Measured) →
      Interleaving jobs (rates.map .apply) schedule →
        dashboard.performAll schedule = (dashboard.performAll jobs).applyAll rates := by
  refine ⟨fun own hown => ?_, fun rate queue hrate hqueue =>
    apply_comm_of_traffic hrate hqueue dashboard,
    fun jobs rates schedule hjobs hrates hschedule => ?_⟩
  · have hneutral : own.Neutral := hown.elim Measured.neutral OfQueue.neutral
    exact ⟨fun block hblock => apply_comm_of_neutral hneutral hblock.alongHeights dashboard,
      truncate_apply h hneutral⟩
  · have hswap : ∀ state : Dashboard α, state.OverCatalogue → ∀ job ∈ jobs,
        ∀ own ∈ rates.map CommitJob.apply,
          (state.perform own).perform job = (state.perform job).perform own := by
      intro state hstate job hjob own hown
      obtain ⟨rate, hrate, rfl⟩ := List.mem_map.1 hown
      exact perform_comm hstate (hrates rate hrate) (hjobs job hjob)
    rw [← performAll_apply, ← performAll_append]
    exact hschedule.foldl_eq (fun state hstate job _ => hstate.perform job) hswap h

/-- A measurement comes in before a block, a queue status and a rollback below the block. -/
theorem traffic_commutes_rollback :
    let dashboard : Dashboard Rat := .empty (.ofDescriptors catalogue ⟨2, 2⟩)
    dashboard.OverCatalogue ∧ ∃ block queue rate : Batch Rat,
      block.OfSample ∧ queue.OfQueue ∧ rate.Measured ∧ rate.updates.length = 8 ∧
      (dashboard.apply rate).truncate 6 =
        ((dashboard.truncate 6).1.apply rate, (dashboard.truncate 6).2) ∧
      dashboard.performAll [.apply rate, .apply block, .apply queue, .truncate 6] =
        (dashboard.performAll [.apply block, .apply queue, .truncate 6]).applyAll [rate] := by
  intro dashboard
  have hover : dashboard.OverCatalogue := overCatalogue_empty ⟨2, 2⟩
  obtain ⟨hown, -, hall⟩ := traffic_commutes hover
  have hfits : ∀ axis, 1 ≤ HistorySizes.along ⟨2, 2⟩ axis := by
    intro axis
    cases axis <;> decide
  obtain ⟨set, -, -⟩ := AccumulatorSet.exists_ofDescriptors (α := Rat) Nat.one_pos hfits
  let speeds : Accumulator Rat := .empty 2 1 (by decide) (by decide)
  let traffic : AccumulatorSet Rat :=
    ⟨.ofList [("download_speed", ⟨.network, speeds⟩), ("upload_speed", ⟨.network, speeds⟩)]⟩
  let meter : RateMeter := ⟨.network, some ⟨⟨0, 0⟩, 0⟩⟩
  have hsome : (((meter.tick ⟨⟨3000, 500⟩, 1000⟩).2.run traffic).1.toOption.bind id).isSome := by
    decide +kernel
  obtain ⟨sample, hsample⟩ := Option.isSome_iff_exists.1 hsome
  have hrun : ((meter.tick ⟨⟨3000, 500⟩, 1000⟩).2.run traffic).1 = .ok (some sample) := by
    cases hresult : ((meter.tick ⟨⟨3000, 500⟩, 1000⟩).2.run traffic).1 with
    | error error =>
      rw [hresult] at hsample
      cases hsample
    | ok result =>
      rw [hresult] at hsample
      exact congrArg Except.ok hsample
  have hrate : sample.batch.Measured := ⟨meter, _, traffic, sample, hrun, rfl⟩
  refine ⟨hover, ((Ingestion.fresh set).process Group.blockGroups .recorded { height := 7 } 0).2,
    .ofQueueStatus { total := 1 }, sample.batch, ⟨_, _, _, _, rfl⟩, ⟨_, rfl⟩, hrate, ?_,
    (hown _ (.inl hrate)).2 6, ?_⟩
  · obtain ⟨upload, download, hbatch⟩ := RateMeter.exists_batch_of_tick (Prod.ext hrun rfl)
    rw [hbatch]
    rfl
  · refine hall _ [sample.batch] _ (fun job hjob => ?_) (fun rate hmem => ?_) ?_
    · simp only [List.mem_cons, List.not_mem_nil, or_false] at hjob
      rcases hjob with rfl | rfl | rfl
      · rintro batch ⟨⟩
        exact .inl ⟨_, _, _, _, rfl⟩
      · rintro batch ⟨⟩
        exact .inr ⟨_, rfl⟩
      · exact fun batch hbatch => nomatch hbatch
    · rw [List.mem_singleton.1 hmem]
      exact hrate
    · exact .right (.left (.left (.left .nil)))

end Dashboard

end NodeTelemetry
