import NodeTelemetry.Proofs.Engine.Averages
import NodeTelemetry.Proofs.Scalar.Order

/-!
The readouts of a running engine. Those that the dashboard stores as samples come in are those that its
charts tell, so that a rollback, which reads the charts, brings back what was stored.
-/

set_option autoImplicit false

namespace NodeTelemetry

open Scalar (LawfulAverages LawfulRounding LawfulOrder Nonneg ofWord)

variable {α : Type} [Scalar α]

/-! ### What was shown stays shown -/

private theorem Consumer.shown_prefix_step (consumer : Consumer α) (job : CommitJob α) :
    consumer.shown <+: (consumer.step job).shown := by
  cases job with
  | apply batch => exact List.prefix_append _ _
  | truncate height => exact List.prefix_append _ _
  | barrier ticket => exact List.prefix_rfl

namespace Engine

private theorem consumer_stepMeasurement (engine : Engine α) (now : Int64) :
    (engine.stepMeasurement now).consumer = engine.consumer := by
  unfold stepMeasurement
  split
  · simp only
    split
    · rfl
    · rfl
  · rfl

private theorem consumer_stepIngestion (engine : Engine α) :
    engine.stepIngestion.consumer = engine.consumer := by
  unfold stepIngestion
  split
  · rfl
  · split
    · rfl
    · rfl

private theorem shown_prefix_step (engine : Engine α) (task : Task) :
    engine.consumer.shown <+: (engine.step task).consumer.shown := by
  unfold step
  split
  · cases task with
    | ingestion =>
      simp only
      rw [consumer_stepIngestion]
    | measurement now =>
      simp only
      rw [consumer_stepMeasurement]
    | report =>
      simp only [stepReport]
      split
      · exact List.prefix_rfl
      · exact List.prefix_rfl
    | rest =>
      simp only [stepRest]
      split
      · exact List.prefix_rfl
      · exact List.prefix_rfl
    | commit =>
      simp only [stepCommit]
      split
      · exact List.prefix_rfl
      · exact engine.consumer.shown_prefix_step _
  · exact List.prefix_rfl

private theorem shown_prefix_make (engine : Engine α) (move : Move) :
    engine.consumer.shown <+: (engine.make move).consumer.shown := by
  cases move with
  | submit event =>
    simp only [make, submit]
    split
    · exact List.prefix_rfl
    · exact List.prefix_rfl
  | ask =>
    simp only [make, submit]
    split
    · exact List.prefix_rfl
    · exact List.prefix_rfl
  | setWindow window =>
    simp only [make, setWindow]
    cases engine.accumulators.setWindow window with
    | ok set => exact List.prefix_rfl
    | error error => exact List.prefix_rfl
  | setVolume counters => exact List.prefix_rfl
  | start =>
    unfold make start
    by_cases hwaiting : engine.phase = .waiting
    · rw [if_pos hwaiting]
    · rw [if_neg hwaiting]
  | step task => exact engine.shown_prefix_step task
  | close => exact List.prefix_rfl
  | finish => exact List.prefix_rfl

private theorem shown_prefix_after (engine : Engine α) (moves : List Move) :
    engine.consumer.shown <+: (engine.after moves).consumer.shown := by
  induction moves generalizing engine with
  | nil => exact List.prefix_rfl
  | cons move moves ih => exact (engine.shown_prefix_make move).trans (ih (engine.make move))

private theorem shownBatches_prefix_after (engine : Engine α) (moves : List Move) :
    engine.shownBatches <+: (engine.after moves).shownBatches :=
  (engine.shown_prefix_after moves).filterMap Notice.batch?

/-! ### The samples on display -/

def committedHeights (engine : Engine α) : List UInt64 :=
  engine.shownBatches.filterMap Batch.blockHeight?

/-- The heights of samples go up, told apart as scalars. -/
def HeightsIncrease (α : Type) [Scalar α] (samples : List BlockSample) : Prop :=
  samples.Pairwise fun earlier later =>
    Scalar.lt (ofWord earlier.height : α) (ofWord later.height) = true

namespace InStep

variable {sizes : HistorySizes} {engine before : Engine α} {samples : List BlockSample}
  {records : List (Record α)} {acc : Metric → Accumulator α} {metric : Metric}

private theorem increasing (h : InStep sizes engine samples records acc)
    (hincreasing : HeightsIncrease α samples) : Record.Increasing records := by
  rw [HeightsIncrease, h.samples_eq] at hincreasing
  have hrecords := (List.pairwise_append.1 hincreasing).1
  rwa [List.pairwise_reverse, List.pairwise_map] at hrecords

private theorem exists_shown (h : InStep sizes engine samples records acc)
    (hincreasing : HeightsIncrease α samples) :
    ∃ shown, Chronicle engine.shownBatches shown ∧ Record.Remembered sizes.chart shown ∧
      Record.Increasing shown := by
  obtain ⟨shown, hsuffix, hchronicle⟩ := h.chronicle.exists_prefix
  exact ⟨shown, hchronicle, h.remembered.of_suffix hsuffix,
    (h.increasing hincreasing).sublist hsuffix.sublist⟩

variable [LawfulRounding α]

private theorem readouts_agree (h : InStep sizes engine samples records acc)
    (hincreasing : HeightsIncrease α samples) (hpos : 0 < sizes.chart)
    (hcommitted : engine.committedHeights ≠ []) (hmetric : metric ∈ Metric.alongHeights) :
    ∃ stored rebuilt, engine.dashboard.readouts.get? metric.name = some stored ∧
      Readout.latest? metric.name engine.dashboard.series.readouts = some rebuilt ∧
      stored.Agrees metric rebuilt := by
  obtain ⟨shown, hchronicle, hremembered, hshown⟩ := h.exists_shown hincreasing
  cases shown with
  | nil =>
    refine absurd ?_ hcommitted
    rw [committedHeights, hchronicle.blockHeights]
    rfl
  | cons record earlier =>
    obtain ⟨rebuilt, hrebuilt, hagrees⟩ :=
      (Dashboard.holds_ofBatches hchronicle hshown).agrees hremembered hpos hmetric
    refine ⟨record.readout metric, rebuilt, ?_, ?_, hagrees⟩
    · rw [h.dashboard, Dashboard.readouts_ofBatches hchronicle hmetric]
      rfl
    · rw [h.dashboard]
      exact hrebuilt

private theorem readouts_truncate (h : InStep sizes engine samples records acc)
    (hincreasing : HeightsIncrease α samples)
    (hbefore : before.dashboard = Dashboard.ofBatches sizes before.shownBatches)
    (hgrown : before.shownBatches <+: engine.shownBatches) {last next : UInt64}
    {rest : List UInt64} (hlast : last ∈ before.committedHeights.getLast?)
    (hnext : engine.committedHeights = before.committedHeights ++ next :: rest)
    (hroom : engine.committedHeights.length ≤ sizes.chart) {height : UInt64}
    (hle : Scalar.le (ofWord last : α) (ofWord height) = true)
    (hlt : Scalar.lt (ofWord height : α) (ofWord next) = true)
    (hmetric : metric ∈ Metric.alongHeights) :
    ∃ stored restored, before.dashboard.readouts.get? metric.name = some stored ∧
      (engine.dashboard.truncate height).1.readouts.get? metric.name = some restored ∧
      stored.Agrees metric restored := by
  obtain ⟨shown, hchronicle, hremembered, hshown⟩ := h.exists_shown hincreasing
  obtain ⟨later, hall⟩ := hgrown
  have hsplit := hchronicle
  rw [← hall] at hsplit
  rw [committedHeights, ← hall] at hnext
  obtain ⟨newer, oldest, record, older, rfl, hearlier, hrecord, holdest⟩ :=
    hsplit.exists_split hlast hnext
  have hbelow : ∀ below ∈ record :: older, Scalar.le below.height (ofWord height) = true := by
    refine Record.Increasing.below (hshown.sublist (List.sublist_append_right _ _)) ?_
    rw [Record.height, hrecord]
    exact hle
  have habove : ∀ above ∈ newer ++ [oldest], Scalar.lt (ofWord height) above.height = true := by
    refine Record.Increasing.above (hshown.sublist (List.sublist_append_left _ _)) ?_
    rw [Record.height, holdest]
    exact hlt
  have hlength : (newer ++ [oldest] ++ record :: older).length ≤ sizes.chart := by
    rwa [committedHeights, hchronicle.blockHeights, List.length_reverse, List.length_map] at hroom
  obtain ⟨restored, hrestored, hagrees⟩ := Dashboard.readouts_rollback hchronicle hshown
    (hremembered.of_suffix (List.suffix_append _ _)) hlength habove hbelow
    (List.append_ne_nil_of_right_ne_nil _ (List.cons_ne_nil _ _)) hmetric
  refine ⟨record.readout metric, restored, ?_, ?_, hagrees⟩
  · rw [hbefore, Dashboard.readouts_ofBatches hearlier hmetric]
    rfl
  · rw [h.dashboard]
    exact hrestored

end InStep

/-- The stored readouts are those that the charts tell, as long as the heights of the samples go up,
nothing is rolled back and no average is below zero, which exact arithmetic excludes. So a rollback to
between two samples brings back what was stored after the earlier one, if the charts hold all samples. -/
theorem readouts_match_charts [LawfulRounding α] {config : EngineConfig} (hpos : 0 < config.window)
    (hle : config.window ≤ config.largestWindow) :
    ∃ fresh : Engine α, build config = .ok fresh ∧
      (LawfulAverages α → ∀ moves, (fresh.after moves).AveragesNonneg) ∧ ∀ moves : List Move,
      (∀ event ∈ fresh.accepted moves, ∀ height, event ≠ .blockPopped height) →
      HeightsIncrease α ((fresh.accepted moves).filterMap IngestEvent.sample?) →
      (∀ first, first <+: moves → (fresh.after first).AveragesNonneg) →
      ((fresh.after moves).committedHeights ≠ [] → ∀ metric ∈ Metric.alongHeights,
        ∃ stored rebuilt,
          (fresh.after moves).dashboard.readouts.get? metric.name = some stored ∧
          Readout.latest? metric.name (fresh.after moves).dashboard.series.readouts =
            some rebuilt ∧
          stored.Agrees metric rebuilt) ∧
      ∀ first, first <+: moves → ∀ last ∈ (fresh.after first).committedHeights.getLast?,
        ∀ next rest, (fresh.after moves).committedHeights =
            (fresh.after first).committedHeights ++ next :: rest →
          (fresh.after moves).committedHeights.length ≤ config.chartHistory →
          ∀ height, Scalar.le (ofWord last : α) (ofWord height) = true →
            Scalar.lt (ofWord height : α) (ofWord next) = true →
            ∀ metric ∈ Metric.alongHeights, ∃ stored restored,
              (fresh.after first).dashboard.readouts.get? metric.name = some stored ∧
              ((fresh.after moves).dashboard.truncate height).1.readouts.get? metric.name =
                some restored ∧
              stored.Agrees metric restored := by
  obtain ⟨fresh, acc, hbuild, hfresh⟩ := exists_build (α := α) hpos hle
  have hchart : 0 < config.histories.chart :=
    hpos.trans_le (hle.trans (Nat.min_le_left _ _))
  refine ⟨fresh, hbuild, fun _ => averagesNonneg_after hbuild,
    fun moves hrollbacks hincreasing hnonneg => ?_⟩
  obtain ⟨records, acc, h⟩ := hfresh.after moves hrollbacks hnonneg
  refine ⟨fun hcommitted metric hmetric =>
    h.readouts_agree hincreasing hchart hcommitted hmetric, ?_⟩
  intro first hfirst last hlast next rest hnext hroom height hbelow habove metric hmetric
  obtain ⟨later, rfl⟩ := hfirst
  have hrollbacksFirst : ∀ event ∈ fresh.accepted first, ∀ height, event ≠ .blockPopped height := by
    intro event hevent
    refine hrollbacks event ?_
    rw [accepted_append]
    exact List.mem_append_left _ hevent
  obtain ⟨recordsFirst, accFirst, hbefore⟩ := hfresh.after first hrollbacksFirst
    fun start hstart => hnonneg start (hstart.trans (List.prefix_append first later))
  have hgrown : (fresh.after first).shownBatches <+: (fresh.after (first ++ later)).shownBatches := by
    rw [after_append]
    exact (fresh.after first).shownBatches_prefix_after later
  exact h.readouts_truncate hincreasing hbefore.dashboard hgrown hlast hnext hroom hbelow habove
    hmetric

/-- The window grows between two blocks, and the second one is rolled back. -/
theorem readouts_match_charts_rollback :
    let config : EngineConfig := { chartHistory := 2, speedHistory := 2, window := 1 }
    let block (height totalTime : UInt64) : IngestEvent :=
      .sample (some ({ height, totalTime }, 1000))
    let work : List Move := [.step .ingestion, .step .ingestion, .step .commit]
    let first : List Move := [.start, .submit (block 1 10)] ++ work
    let moves : List Move := first ++ ([.setWindow 2, .submit (block 2 21)] ++ work)
    ∃ fresh : Engine Rat, build config = .ok fresh ∧
      (∃ stored, (fresh.after moves).dashboard.readouts.get? "push_time" = some stored ∧
        Readout.latest? "push_time" (fresh.after moves).dashboard.series.readouts = some stored) ∧
      ∃ stored, (fresh.after first).dashboard.readouts.get? "push_time" = some stored ∧
        ((fresh.after moves).dashboard.truncate 1).1.readouts.get? "push_time" = some stored := by
  intro config block work first moves
  have hrun : ∀ fresh ∈ (build config : Except SizeError (Engine Rat)).toOption,
      fresh.accepted moves = [block 1 10, block 2 21] ∧
      (fresh.after first).committedHeights = [1] ∧ (fresh.after moves).committedHeights = [1, 2] := by
    decide +kernel
  obtain ⟨fresh, hbuild, hnonneg, hagree⟩ :=
    readouts_match_charts (α := Rat) (show 0 < config.window by decide) (by decide)
  refine ⟨fresh, hbuild, ?_⟩
  obtain ⟨haccepted, hfirst, hmoves⟩ := hrun fresh (by rw [hbuild]; rfl)
  have hrollbacks : ∀ event ∈ fresh.accepted moves, ∀ height, event ≠ .blockPopped height := by
    rw [haccepted]
    simp [block]
  have hincreasing : HeightsIncrease Rat ((fresh.accepted moves).filterMap IngestEvent.sample?) := by
    rw [haccepted, HeightsIncrease]
    decide +kernel
  obtain ⟨hlive, hrestored⟩ := hagree moves hrollbacks hincreasing fun start _ =>
    hnonneg inferInstance start
  constructor
  · obtain ⟨stored, rebuilt, hstored, hrebuilt, -, -, heq⟩ :=
      hlive (by rw [hmoves]; decide) .pushTime (by decide)
    obtain rfl : stored = rebuilt := heq (by decide)
    exact ⟨stored, hstored, hrebuilt⟩
  · obtain ⟨stored, restored, hstored, htruncated, -, -, heq⟩ :=
      hrestored first (List.prefix_append _ _) 1 (by rw [hfirst]; rfl) 2 [] (by rw [hmoves, hfirst]; rfl)
        (by rw [hmoves]; decide) 1 (by decide +kernel) (by decide +kernel) .pushTime (by decide)
    obtain rfl : stored = restored := heq (by decide)
    exact ⟨stored, hstored, htruncated⟩

end Engine

end NodeTelemetry
