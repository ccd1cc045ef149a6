import NodeTelemetry.Proofs.Dashboard.Alignment
import NodeTelemetry.Proofs.Engine.Production

/-!
Aligned charts of a running engine. A sample brings one point and one readout for each chart along
heights, a measurement one point for each chart along time or none, and a rollback cuts all charts along
heights at one bound; so the points of all charts of an axis stay at the same places.
-/

set_option autoImplicit false

namespace NodeTelemetry

open Scalar (ofWord ofTime)

variable {α : Type} [Scalar α]

/-! ### Complete batches -/

/-- A batch of a block has one point, at the height, and one readout for each metric along heights, and
nothing else. One of a measurement has one point for each metric along time, at the time, or no point
at all. One of a queue status has no point. -/
def Batch.Complete (batch : Batch α) : Prop :=
  match batch.kind with
  | .block height =>
    (∀ metric ∈ Metric.alongHeights,
      (∃ y, batch.pointsFor metric.name = [⟨ofWord height, y⟩]) ∧
        ∃ readout, batch.readouts.filter (·.name = metric.name) = [readout]) ∧
      ∀ update ∈ batch.updates, ∃ metric ∈ Metric.alongHeights, update.subject = metric.name
  | .network time =>
    ((∀ metric ∈ Metric.alongTime, ∃ y, batch.pointsFor metric.name = [⟨ofTime time, y⟩]) ∨
        ∀ name, batch.pointsFor name = []) ∧
      ∀ update ∈ batch.updates, ∃ metric ∈ Metric.alongTime, update.subject = metric.name
  | .queueStatus => ∀ name, batch.pointsFor name = []

namespace Group

private theorem filter_readouts_blockBatch (sample : BlockSample) (acc : Metric → Accumulator α)
    {metric : Metric} (h : metric ∈ Metric.alongHeights) :
    (blockBatch sample acc).readouts.filter (·.name = metric.name) =
      [.render metric.descriptor (reading sample acc metric)] := by
  have honce : Metric.alongHeights.filter (fun other => decide (other = metric)) = [metric] := by
    revert metric
    decide
  have hname : ∀ other : Metric, decide ((Readout.render other.descriptor
      (reading sample acc other)).name = metric.name) = decide (other = metric) := by
    intro other
    rw [Readout.render_name, Metric.descriptor_name]
    exact decide_eq_decide.2 Metric.name_injective.eq_iff
  rw [readouts_blockBatch, List.filter_map]
  simp only [Function.comp_def, hname]
  rw [honce]
  rfl

private theorem complete_blockBatch (sample : BlockSample) (acc : Metric → Accumulator α) :
    (blockBatch sample acc).Complete := by
  refine ⟨fun metric hmetric => ⟨⟨_, pointsFor_blockBatch sample acc hmetric⟩,
    ⟨_, filter_readouts_blockBatch sample acc hmetric⟩⟩, fun update hupdate => ?_⟩
  obtain ⟨metric, hmetric, hupdate⟩ := List.mem_flatMap.1 hupdate
  exact Update.alongHeights_pair hmetric _ _ _ update hupdate

end Group

namespace RateMeter

private theorem complete_network (now : VolumeSnapshot) (upload download : Accumulator α) :
    Batch.Complete ⟨.network now.observedAt,
      points now upload download ++ readouts now upload download⟩ := by
  refine ⟨?_, fun update hupdate => subject_mem_alongTime hupdate⟩
  by_cases hcounted : 0 < now.counters.uploaded ∨ 0 < now.counters.downloaded
  · left
    rw [Metric.alongTime_eq]
    intro metric hmetric
    simp only [List.mem_cons, List.not_mem_nil, or_false] at hmetric
    simp only [Batch.pointsFor, points, if_pos hcounted, readouts]
    rcases hmetric with rfl | rfl | rfl | rfl <;> exact ⟨_, rfl⟩
  · right
    intro name
    simp only [Batch.pointsFor, points, if_neg hcounted, readouts]
    rfl

end RateMeter

private theorem Batch.Produced.complete {batch : Batch α} (h : batch.Produced) :
    batch.Complete := by
  cases h with
  | block record => exact Group.complete_blockBatch record.sample record.acc
  | network now upload download => exact RateMeter.complete_network now upload download
  | queueStatus status => exact fun name => rfl

omit [Scalar α] in
private theorem Batch.pointsFor_of_other_axis {batch : Batch α} {metrics : List Metric}
    {axis : Axis} (hmetrics : ∀ metric ∈ metrics, metric.descriptor.axis = axis)
    (hsubjects : ∀ update ∈ batch.updates, ∃ metric ∈ metrics, update.subject = metric.name)
    {metric : Metric} (hother : metric.descriptor.axis ≠ axis) :
    batch.pointsFor metric.name = [] := by
  refine pointsFor_eq_nil fun update hupdate hname => ?_
  obtain ⟨own, hown, hsubject⟩ := hsubjects update hupdate
  rw [hsubject] at hname
  exact hother (Metric.name_injective hname ▸ hmetrics own hown)

private theorem Batch.Complete.exists_given {batch : Batch α} (h : batch.Complete) :
    ∃ given : Axis → List α, ∀ metric : Metric, metric.descriptor.charted = true →
      (batch.pointsFor metric.name).map (·.x) = given metric.descriptor.axis := by
  unfold Complete at h
  split at h
  next height _ =>
    obtain ⟨hfigures, hsubjects⟩ := h
    refine ⟨fun axis => if axis = .height then [ofWord height] else [], fun metric hcharted => ?_⟩
    by_cases haxis : metric.descriptor.axis = .height
    · obtain ⟨⟨y, hpoints⟩, -⟩ := hfigures metric (Metric.mem_alongHeights.2 ⟨hcharted, haxis⟩)
      simp only [if_pos haxis, hpoints, List.map_cons, List.map_nil]
    · have hnone := pointsFor_of_other_axis
        (fun own hown => (Metric.mem_alongHeights.1 hown).2) hsubjects haxis
      simp only [if_neg haxis, hnone, List.map_nil]
  next time _ =>
    obtain ⟨hpoints | hnone, hsubjects⟩ := h
    · refine ⟨fun axis => if axis = .timestamp then [ofTime time] else [], fun metric hcharted => ?_⟩
      by_cases haxis : metric.descriptor.axis = .timestamp
      · obtain ⟨y, hpoint⟩ := hpoints metric (Metric.mem_alongTime.2 ⟨hcharted, haxis⟩)
        simp only [if_pos haxis, hpoint, List.map_cons, List.map_nil]
      · have hnone := pointsFor_of_other_axis
          (fun own hown => (Metric.mem_alongTime.1 hown).2) hsubjects haxis
        simp only [if_neg haxis, hnone, List.map_nil]
    · exact ⟨fun _ => [], fun metric _ => by rw [hnone]; rfl⟩
  next => exact ⟨fun _ => [], fun metric _ => by rw [h]; rfl⟩

/-! ### Aligned dashboards -/

namespace Dashboard

variable {dashboard : Dashboard α} {sizes : HistorySizes}

/-- The charts of each axis have their points at the same places. -/
def Aligned (sizes : HistorySizes) (dashboard : Dashboard α) : Prop :=
  ∃ places, dashboard.series.Aligned sizes places

omit [Scalar α] in
private theorem aligned_empty (sizes : HistorySizes) :
    (Dashboard.empty (.ofDescriptors catalogue sizes) : Dashboard α).Aligned sizes :=
  ⟨fun _ => [], SeriesStore.aligned_ofDescriptors sizes⟩

private theorem Aligned.perform (h : dashboard.Aligned sizes) {job : CommitJob α}
    (hjob : ∀ batch ∈ job.batch?, batch.Complete) : (dashboard.perform job).Aligned sizes := by
  obtain ⟨places, h⟩ := h
  cases job with
  | apply batch =>
    obtain ⟨given, hgiven⟩ := (hjob batch rfl).exists_given
    have hpoints : ∀ name axis, SeriesStore.chartAxes.get? name = some axis →
        (batch.pointsFor name).map (·.x) = given axis := by
      intro name axis hname
      obtain ⟨metric, rfl, hcharted, rfl⟩ := SeriesStore.exists_metric_of_chartAxes hname
      exact hgiven metric hcharted
    rw [Dashboard.perform, Aligned, series_apply]
    exact ⟨_, h.insertAll hpoints⟩
  | truncate height => exact ⟨_, h.truncate .height (ofWord height)⟩
  | barrier ticket => exact ⟨places, h⟩

private theorem Aligned.performAll (h : dashboard.Aligned sizes) {jobs : List (CommitJob α)}
    (hjobs : ∀ job ∈ jobs, ∀ batch ∈ job.batch?, batch.Complete) :
    (dashboard.performAll jobs).Aligned sizes := by
  induction jobs generalizing dashboard with
  | nil => exact h
  | cons job jobs ih =>
    exact ih (h.perform (hjobs job List.mem_cons_self)) fun own hown =>
      hjobs own (List.mem_cons_of_mem _ hown)

end Dashboard

/-! ### Aligned engines -/

namespace Engine

/-- The batches that were shown, wait for the consumer, or are about to be posted. -/
def batches (engine : Engine α) (moves : List Move) : List (Batch α) :=
  (engine.applied moves ++ (engine.after moves).waiting ++
    (engine.after moves).measured.toList).filterMap CommitJob.batch?

private theorem Producing.complete {engine : Engine α} (h : engine.Producing) (moves : List Move) :
    ∀ batch ∈ engine.batches moves, batch.Complete := by
  intro batch hbatch
  obtain ⟨job, hjob, hbatch⟩ := List.mem_filterMap.1 hbatch
  have hproduced : job.Produced := by
    simp only [List.mem_append, Option.mem_toList] at hjob
    rcases hjob with (hjob | hjob) | hjob
    · exact h.applied moves job hjob
    · exact (h.after moves).waiting job hjob
    · exact (h.after moves).measured job hjob
  exact (hproduced batch hbatch).complete

/-- Whatever happens to an engine, the charts along heights have their points at the same heights and
those along time at the same times, and every rollback takes equally many points from each chart along
heights. For every batch is complete. -/
theorem charts_aligned {config : EngineConfig} (hpos : 0 < config.window)
    (hle : config.window ≤ config.largestWindow) :
    ∃ fresh : Engine α, build config = .ok fresh ∧ ∀ moves : List Move,
      (∀ batch ∈ fresh.batches moves, batch.Complete) ∧
      (∃ heights times : List α,
        (∀ metric ∈ Metric.alongHeights, ∃ series,
          (fresh.after moves).dashboard.series.series? metric.name = some series ∧
          series.points.map (·.x) = heights) ∧
        ∀ metric ∈ Metric.alongTime, ∃ series,
          (fresh.after moves).dashboard.series.series? metric.name = some series ∧
          series.points.map (·.x) = times) ∧
      ∀ height, ∃ cut,
        (∀ metric ∈ Metric.alongHeights, ∃ before after,
          (fresh.after moves).dashboard.series.series? metric.name = some before ∧
          ((fresh.after moves).dashboard.truncate height).1.series.series? metric.name = some after ∧
          before.size = cut + after.size) ∧
        ((fresh.after moves).dashboard.truncate height).2.removed =
          cut * Metric.alongHeights.length := by
  obtain ⟨fresh, hbuild, hproducing⟩ := exists_producing (α := α) hpos hle
  refine ⟨fresh, hbuild, fun moves => ⟨hproducing.complete moves, ?_⟩⟩
  have haligned : (fresh.after moves).dashboard.Aligned config.histories := by
    rw [dashboard_of_build hbuild]
    refine (Dashboard.aligned_empty config.histories).performAll ?_
    exact fun job hjob batch hbatch => (hproducing.applied moves job hjob batch hbatch).complete
  obtain ⟨places, haligned⟩ := haligned
  refine ⟨⟨places .height, places .timestamp, fun metric hmetric => ?_, fun metric hmetric => ?_⟩,
    fun height => ?_⟩
  · obtain ⟨hcharted, haxis⟩ := Metric.mem_alongHeights.1 hmetric
    obtain ⟨series, hseries, -, hplaces⟩ := haligned.exists_series hcharted
    rw [haxis] at hplaces
    exact ⟨series, SeriesStore.series?_of_get? hseries, hplaces⟩
  · obtain ⟨hcharted, haxis⟩ := Metric.mem_alongTime.1 hmetric
    obtain ⟨series, hseries, -, hplaces⟩ := haligned.exists_series hcharted
    rw [haxis] at hplaces
    exact ⟨series, SeriesStore.series?_of_get? hseries, hplaces⟩
  · obtain ⟨cut, hcut, hremoved⟩ := haligned.beyond_height (ofWord height)
    refine ⟨cut, fun metric hmetric => ?_, hremoved⟩
    obtain ⟨series, hseries, hbeyond⟩ := hcut metric hmetric
    have hcutSeries : ((fresh.after moves).dashboard.truncate height).1.series.charts.get?
        metric.name = some ⟨.height, series.truncate (ofWord height)⟩ := by
      rw [Dashboard.series_truncate, SeriesStore.get?_truncate, hseries, Option.map_some, if_pos rfl]
    refine ⟨series, series.truncate (ofWord height), SeriesStore.series?_of_get? hseries,
      SeriesStore.series?_of_get? hcutSeries, ?_⟩
    rw [← hbeyond]
    exact series.size_truncate (ofWord height)

/-- One of four blocks comes too late for the charts, and two are rolled back; traffic is measured in
between. -/
theorem charts_aligned_rollback :
    let config : EngineConfig := { chartHistory := 3, speedHistory := 2, window := 2 }
    let block (height : UInt64) : List Move :=
      [.submit (.sample (some ({ height, totalTime := 10 }, 1000))), .step .ingestion, .step .ingestion,
        .step .commit]
    let measure (now : Int64) : List Move := [.step (.measurement now), .step .report, .step .commit]
    let moves : List Move := List.flatten [[.start, .setVolume ⟨5, 7⟩, .step (.measurement 1000)],
      block 4, measure 2000, block 9, block 6, measure 3000, block 12]
    ∃ fresh : Engine Rat, build config = .ok fresh ∧
      (fresh.after moves).dashboard.series.charts.toList.length = 21 ∧
      ∃ cut, 0 < cut ∧
        ((fresh.after moves).dashboard.truncate 4).2.removed = cut * Metric.alongHeights.length := by
  intro config block measure moves
  have hrun : ∀ fresh ∈ (build config : Except SizeError (Engine Rat)).toOption,
      (fresh.after moves).dashboard.series.charts.toList.length = 21 ∧
      ((fresh.after moves).dashboard.truncate 4).2.removed ≠ 0 := by
    decide +kernel
  obtain ⟨fresh, hbuild, haligned⟩ :=
    charts_aligned (α := Rat) (show 0 < config.window by decide) (by decide)
  obtain ⟨hcharts, hremoved⟩ := hrun fresh (by rw [hbuild]; rfl)
  obtain ⟨-, -, hcuts⟩ := haligned moves
  obtain ⟨cut, -, hcut⟩ := hcuts 4
  refine ⟨fresh, hbuild, hcharts, cut, Nat.pos_of_ne_zero ?_, hcut⟩
  rintro rfl
  exact hremoved (hcut.trans (Nat.zero_mul _))

end Engine

end NodeTelemetry
