import NodeTelemetry.Proofs.Accumulator.Dominance
import NodeTelemetry.Proofs.Accumulator.Views
import NodeTelemetry.Proofs.Dashboard.Scale
import NodeTelemetry.Proofs.Engine.Consistency

/-!
Readouts of a running engine on their scales. In exact arithmetic no value that is shown is below zero
or beyond its maximum, and shares of the push time are percentages of it, as long as no part of a
sample's push time takes longer than the whole; heights, rollbacks and windows do not matter.
-/

set_option autoImplicit false

namespace NodeTelemetry

open Scalar (ofWord)
open NodeTelemetry.Computation (fed fed_of_mem fed_of_not_mem exists_fed_eq_insert)

/-- No part of the push time takes longer than the whole. -/
def BlockSample.PartsWithin (sample : BlockSample) : Prop :=
  ∀ part ∈ Group.Timing.components, part.2 sample ≤ sample.totalTime

instance (sample : BlockSample) : Decidable sample.PartsWithin :=
  inferInstanceAs (Decidable (∀ part ∈ Group.Timing.components, part.2 sample ≤ sample.totalTime))

/-! ### The accumulators -/

namespace Accumulator

/-- Every maximum is that of the history, and the parts of the push time are beneath it. -/
structure Ranked (acc : Metric → Accumulator Rat) : Prop where
  peaked : ∀ metric, (acc metric).Peaked
  beneath : ∀ part ∈ Group.Timing.components, (acc part.1).Beneath (acc .pushTime)

variable {acc : Metric → Accumulator Rat} {sample : BlockSample} {feeds : List (Metric × Rat)}

private theorem peaked_fed (h : ∀ metric, (acc metric).Peaked) (feeds : List (Metric × Rat))
    (metric : Metric) : (fed acc feeds metric).Peaked :=
  Computation.forall_fed (fun _ value hpeaked => hpeaked.insert value) h feeds metric

private theorem Ranked.fed_sample (h : Ranked acc) (hfeeds : Group.FedBy sample feeds)
    (hwithin : sample.PartsWithin) : Ranked (fed acc feeds) := by
  refine ⟨peaked_fed h.peaked feeds, fun part hpart => ?_⟩
  have hnodup : (feeds.map (·.1)).Nodup := by
    rw [hfeeds.metrics]
    decide
  have hpush : (Metric.pushTime, ofWord sample.totalTime) ∈ feeds :=
    hfeeds.times (.pushTime, (·.totalTime)) List.mem_cons_self
  have hnonneg : (0 : Rat) ≤ ofWord (part.2 sample) := Nat.cast_nonneg _
  have hle : (ofWord (part.2 sample) : Rat) ≤ ofWord sample.totalTime :=
    Scalar.le_rat.1 (Scalar.LawfulWords.ofWord_mono (hwithin part hpart))
  rw [fed_of_mem hnodup (hfeeds.times part hpart), fed_of_mem hnodup hpush]
  exact (h.beneath part hpart).insert hnonneg hle

private theorem Ranked.fed_rate (h : Ranked acc) (rate : TransferRate Rat) :
    Ranked (fed acc (RateMeter.fedBy rate)) := by
  refine ⟨peaked_fed h.peaked _, fun part hpart => ?_⟩
  have hkept : ∀ metric ∈ Group.Timing.components.map (·.1),
      fed acc (RateMeter.fedBy rate) metric = acc metric := by
    intro metric hmetric
    have hnot : ∀ own ∈ Group.Timing.components.map (·.1), own ∉ Metric.speeds := by decide
    exact fed_of_not_mem (hnot metric hmetric)
  rw [hkept part.1 (List.mem_map_of_mem hpart), hkept .pushTime (by decide)]
  exact h.beneath part hpart

private theorem Ranked.resized (h : Ranked acc) (window : Nat) :
    Ranked fun metric => (acc metric).resized window :=
  ⟨fun metric => (h.peaked metric).resized window,
    fun part hpart => (h.beneath part hpart).resized window⟩

end Accumulator

/-! ### What is shown -/

private theorem Group.shown_nonneg (metric : Metric) {x : Rat} (h : 0 ≤ x) :
    0 ≤ shown metric x := by
  unfold shown
  split
  · exact Int.cast_nonneg (Label.whole_nonneg h)
  · exact h

private theorem Group.shown_mono (metric : Metric) {x y : Rat} (h : x ≤ y) :
    shown metric x ≤ shown metric y := by
  unfold shown
  split
  · exact Int.cast_le.2 (Label.whole_mono h)
  · exact h

private theorem Record.coherent_of_ranked {acc : Metric → Accumulator Rat}
    (h : Accumulator.Ranked acc)
    {sample : BlockSample} {feeds : List (Metric × Rat)} (hfeeds : Group.FedBy sample feeds)
    (hwithin : sample.PartsWithin) : Record.Coherent ⟨sample, fed acc feeds⟩ := by
  let record : Record Rat := ⟨sample, fed acc feeds⟩
  have hranked := h.fed_sample hfeeds hwithin
  have hpush : (record.reading .pushTime).value =
      Group.Timing.wholeOf (fed acc feeds .pushTime).average := rfl
  have hpart : ∀ metric ∈ Metric.shares, metric ≠ .payloadFullness ∧
      metric.descriptor.group = .timing := by
    decide
  constructor
  · intro metric hmetric
    show 0 ≤ (record.reading metric).value
    rw [(record.reading_of_averaged hmetric).1]
    exact Group.shown_nonneg metric (Accumulator.average_nonneg _)
  · intro metric hmetric
    show (record.reading metric).value ≤ (record.reading metric).max
    have hnodup : (feeds.map (·.1)).Nodup := by
      rw [hfeeds.metrics]
      decide
    have hmem : metric ∈ feeds.map (·.1) := by
      rw [hfeeds.metrics]
      exact Metric.fed_of_averaged hmetric
    obtain ⟨value, hvalue⟩ : ∃ value, record.acc metric = (acc metric).insert value :=
      exists_fed_eq_insert hnodup hmem
    rw [(record.reading_of_averaged hmetric).1, (record.reading_of_averaged hmetric).2, hvalue]
    exact Group.shown_mono metric ((h.peaked metric).average_insert_le value)
  · show Group.Timing.wholeOf (record.reading .pushTime).value = (record.reading .pushTime).value
    rw [hpush]
    exact congrArg Scalar.ofInt (Scalar.rounded_ofInt_rounded _)
  · intro metric hmetric
    obtain ⟨hpayload, htiming⟩ := hpart metric hmetric
    show (Group.reading sample (fed acc feeds) metric).total = _
    rw [Group.reading, if_neg hpayload, if_pos htiming]
    rfl
  · intro metric hmetric
    have htiming := (hpart metric hmetric).2
    have hcomponent := hmetric
    rw [Metric.shares_eq] at hcomponent
    obtain ⟨part, hmem, rfl⟩ := List.mem_map.1 (List.mem_of_mem_tail hcomponent)
    have hle : (fed acc feeds part.1).average ≤ (fed acc feeds .pushTime).average :=
      (hranked.beneath part hmem).average_le
    show (record.reading part.1).value ≤ (record.reading .pushTime).value
    rw [(record.reading_of_averaged (Metric.mem_shares.1 hmetric).1).1, hpush, Group.shown,
      if_pos htiming]
    exact Int.cast_le.2 (Label.whole_mono hle)

private theorem Batch.scaled_ofQueueStatus (status : QueueStatus) :
    (Batch.ofQueueStatus status).Scaled := by
  refine .other (neutral_ofQueueStatus status) fun metric hmetric readout hreadout hname => ?_
  obtain ⟨update, hupdate, hsubject⟩ := exists_subject_of_readout hreadout
  obtain ⟨other, hqueue, hother⟩ := QueueStatus.exists_subject hupdate
  have hgroup : ∀ own ∈ Metric.speeds, own.descriptor.group ≠ .queue := by decide
  have hsame : other = metric := Metric.name_injective (hother.symm.trans (hsubject.trans hname))
  exact absurd (hsame ▸ hqueue) (hgroup metric hmetric)

private theorem RateMeter.scaled_shown (now : VolumeSnapshot) {acc : Metric → Accumulator Rat}
    (h : ∀ metric, (acc metric).Peaked) (rate : TransferRate Rat) :
    (shown now rate (fed acc (fedBy rate))).batch.Scaled := by
  refine .other (neutral_network now _ _) fun metric hmetric readout hreadout _ => ?_
  have hspeed : ∀ own ∈ Metric.speeds,
      0 ≤ (fed acc (fedBy rate) own).average ∧
        (fed acc (fedBy rate) own).average ≤ (fed acc (fedBy rate) own).max := by
    intro own hown
    have hnodup : Metric.speeds.Nodup := by decide
    obtain ⟨value, hvalue⟩ : ∃ value, fed acc (fedBy rate) own = (acc own).insert value :=
      exists_fed_eq_insert hnodup hown
    rw [hvalue]
    exact ⟨Accumulator.average_nonneg _, (h own).average_insert_le value⟩
  have hvolume : ∀ bytes : UInt64, (0 : Rat) ≤ ofWord bytes ∧ (ofWord bytes : Rat) ≤ ofWord bytes :=
    fun bytes => ⟨Nat.cast_nonneg _, le_rfl⟩
  obtain ⟨update, hupdate, hshown⟩ := List.mem_filterMap.1 hreadout
  rcases List.mem_append.1 hupdate with hpoint | hupdate
  · simp only [points] at hpoint
    split at hpoint
    · simp only [List.mem_cons, List.not_mem_nil, or_false] at hpoint
      rcases hpoint with rfl | rfl | rfl | rfl <;> cases hshown
    · cases hpoint
  · simp only [readouts, List.mem_cons, List.not_mem_nil, or_false] at hupdate
    rcases hupdate with rfl | rfl | rfl | rfl
    · cases hshown
      exact hspeed .uploadSpeed (by decide)
    · cases hshown
      exact hspeed .downloadSpeed (by decide)
    · cases hshown
      exact hvolume _
    · cases hshown
      exact hvolume _

def CommitJob.Scaled (job : CommitJob Rat) : Prop := ∀ batch ∈ job.batch?, batch.Scaled

private theorem Ingestion.scaled_handle {ingestion : Ingestion Rat} {acc : Metric → Accumulator Rat}
    (hshows : ingestion.accumulators.Shows acc) (h : Accumulator.Ranked acc)
    {groups : List (Group Rat)} (hgroups : groups = Group.blockGroups) (route : ErrorRoute)
    {event : IngestEvent} (hevent : ∀ sample ∈ event.sample?, sample.PartsWithin) :
    (∃ acc', (ingestion.handle groups route event).1.accumulators.Shows acc' ∧
        Accumulator.Ranked acc') ∧
      ∀ job ∈ (ingestion.handle groups route event).2.job?, job.Scaled := by
  cases event with
  | sample taken =>
    cases taken with
    | none => exact ⟨⟨acc, hshows, h⟩, fun job hjob => nomatch hjob⟩
    | some taken =>
      obtain ⟨block, receivedAt⟩ := taken
      have hwithin : block.PartsWithin := hevent block rfl
      obtain ⟨counted, hhandle, hcounted⟩ :=
        ingestion.exists_handle_sample groups route block receivedAt
      subst hgroups
      obtain ⟨feeds, hfeeds, hafter, hbatch⟩ :=
        Group.exists_process_blockGroups (hcounted ▸ hshows) route block receivedAt
      rw [hhandle]
      generalize counted.process Group.blockGroups route block receivedAt = result at hafter hbatch ⊢
      refine ⟨⟨_, hafter, h.fed_sample hfeeds hwithin⟩, fun job hjob batch hmem => ?_⟩
      cases hjob
      cases hmem
      rw [hbatch]
      exact .block (Record.coherent_of_ranked h hfeeds hwithin)
  | queueStatus status =>
    refine ⟨⟨acc, hshows, h⟩, fun job hjob batch hmem => ?_⟩
    cases hjob
    cases hmem
    exact Batch.scaled_ofQueueStatus status
  | blockPopped height =>
    refine ⟨⟨acc, hshows, h⟩, fun job hjob batch hmem => ?_⟩
    cases hjob
    cases hmem
  | flush ticket =>
    refine ⟨⟨acc, hshows, h⟩, fun job hjob batch hmem => ?_⟩
    cases hjob
    cases hmem

private theorem Dashboard.Scaled.performAll {capacity : Nat} {dashboard : Dashboard Rat}
    (h : dashboard.Scaled capacity) (hpos : 0 < capacity) {jobs : List (CommitJob Rat)}
    (hjobs : ∀ job ∈ jobs, job.Scaled) : (dashboard.performAll jobs).Scaled capacity := by
  induction jobs generalizing dashboard with
  | nil => exact h
  | cons job jobs ih =>
    have hstep : (dashboard.perform job).Scaled capacity := by
      cases job with
      | apply batch =>
        have hbatch := hjobs (.apply batch) List.mem_cons_self batch rfl
        cases hbatch with
        | block hrecord => exact h.block hrecord
        | other hneutral hspeeds => exact h.other hneutral hspeeds
      | truncate height => exact h.truncate hpos height
      | barrier ticket => exact h
    exact ih hstep fun later hlater => hjobs later (List.mem_cons_of_mem _ hlater)

namespace Engine

/-! ### Runs -/

/-- An engine with ranked accumulators and samples in its intake whose parts are within the whole; all
that waits and all that is on display is on its scales. -/
structure Scaled (capacity : Nat) (engine : Engine Rat) : Prop where
  producing : engine.Producing
  ranked : ∃ acc, engine.accumulators.Shows acc ∧ Accumulator.Ranked acc
  intake : ∀ event ∈ engine.intake, ∀ sample ∈ event.sample?, sample.PartsWithin
  waiting : ∀ job ∈ engine.waiting, job.Scaled
  measured : ∀ job ∈ engine.measured, job.Scaled
  dashboard : engine.dashboard.Scaled capacity

variable {capacity : Nat} {engine next : Engine Rat} {move : Move}

private theorem Scaled.tick (h : engine.Scaled capacity) {now : Int64}
    {outcome : Except EngineError (Option (RateSample Rat))} {set : AccumulatorSet Rat}
    (hrun : (engine.meter.tick ⟨engine.volume, now⟩).2.run engine.accumulators = (outcome, set)) :
    (∃ acc, set.Shows acc ∧ Accumulator.Ranked acc) ∧
      ∀ sample, outcome = .ok (some sample) → sample.batch.Scaled := by
  obtain ⟨acc, hshows, hranked⟩ := h.ranked
  rcases RateMeter.tick_yields h.producing.meter ⟨engine.volume, now⟩ acc with hnone | ⟨rate, hrate⟩
  · obtain ⟨after, hafter, hset⟩ := hnone engine.accumulators hshows
    cases hafter.symm.trans hrun
    exact ⟨⟨acc, hset, hranked⟩, fun sample hsample => nomatch hsample⟩
  · obtain ⟨after, hafter, hset⟩ := hrate engine.accumulators hshows
    cases hafter.symm.trans hrun
    refine ⟨⟨_, hset, hranked.fed_rate rate⟩, fun sample hsample => ?_⟩
    cases hsample
    exact RateMeter.scaled_shown _ hranked.peaked rate

private theorem Becomes.scaled (h : engine.Becomes move next) (hpos : 0 < capacity)
    (hengine : engine.Scaled capacity)
    (harriving : ∀ event ∈ engine.arriving move, ∀ sample ∈ event.sample?, sample.PartsWithin) :
    next.Scaled capacity := by
  obtain ⟨acc, hshows, hranked⟩ := hengine.ranked
  have hhandle : ∀ event ∈ engine.intake, _ := fun event hevent =>
    Ingestion.scaled_handle hshows hranked hengine.producing.groups engine.route
      (hengine.intake event hevent)
  constructor
  · exact h.producing hengine.producing
  · cases h with
    | setWindow hset => exact ⟨_, hshows.setWindow hset, hranked.resized _⟩
    | @take event _ _ _ hintake =>
      refine (hhandle event ?_).1
      rw [hintake]
      exact List.mem_cons_self
    | observe _ _ _ hrun => exact (hengine.tick hrun).1
    | measure _ _ _ hrun => exact (hengine.tick hrun).1
    | _ => exact hengine.ranked
  · intro event hevent
    rcases h.mem_intake hevent with hevent | hevent
    · exact hengine.intake event hevent
    · exact harriving event hevent
  · intro job hjob
    rcases h.mem_waiting hjob with hjob | hjob | ⟨event, hevent, hjob⟩
    · exact hengine.waiting job hjob
    · exact hengine.measured job hjob
    · exact (hhandle event hevent).2 job hjob
  · intro job hjob
    rcases h.mem_measured hjob with hjob | ⟨now, sample, set, hrun, rfl⟩
    · exact hengine.measured job hjob
    · rintro batch ⟨⟩
      exact (hengine.tick hrun).2 sample rfl
  · rw [h.dashboard_eq]
    refine hengine.dashboard.performAll hpos fun job hjob => ?_
    exact hengine.waiting job (mem_waiting_of_taken hjob)

private theorem Scaled.after (h : engine.Scaled capacity) (hpos : 0 < capacity) {moves : List Move}
    (haccepted : ∀ event ∈ engine.accepted moves, ∀ sample ∈ event.sample?, sample.PartsWithin) :
    (engine.after moves).Scaled capacity := by
  induction moves generalizing engine with
  | nil => exact h
  | cons move moves ih =>
    have hmade : (engine.make move).Scaled capacity :=
      (engine.becomes_make move).scaled hpos h fun event hevent =>
        haccepted event (List.mem_append_left _ hevent)
    exact ih hmade fun event hevent => haccepted event (List.mem_append_right _ hevent)

private theorem scaled_of_build {config : EngineConfig} {fresh : Engine Rat}
    (hbuild : build config = .ok fresh) :
    0 < config.chartHistory ∧ fresh.Scaled config.chartHistory := by
  obtain ⟨set, hset, hfresh⟩ := exists_of_bind hbuild
  cases hfresh
  have hfits := AccumulatorSet.fits_of_ofDescriptors hset
  have hpos : 0 < config.window := (hfits .height).1
  obtain ⟨same, hsame, hshows⟩ :=
    AccumulatorSet.exists_ofDescriptors (α := Rat) hpos fun axis => (hfits axis).2
  cases hset.symm.trans hsame
  refine ⟨hpos.trans_le (hfits .height).2, ⟨rfl, rfl, ⟨_, hshows⟩, nofun, nofun⟩, ⟨_, hshows, ?_⟩,
    nofun, nofun, nofun, Dashboard.scaled_empty config.histories⟩
  refine ⟨fun metric => Accumulator.peaked_empty hpos _, ?_⟩
  have haxis : ∀ metric ∈ Group.Timing.components.map (·.1), metric.descriptor.axis = .height := by
    decide
  intro part hpart
  have hpart : part.1.descriptor.axis = Axis.height := haxis part.1 (List.mem_map_of_mem hpart)
  simp only [hpart]
  exact Accumulator.beneath_empty hpos _

/-- However samples, rollbacks, measurements, queue statuses and windows follow one another, the stored
readouts of the parts of the push time, of the rates and counts of blocks and of the transfer speeds are
never below zero or beyond their maximum, and shares are percentages of the push time; and so are those
that a rollback to any height gives anew. -/
theorem readouts_on_scale {config : EngineConfig} {fresh : Engine Rat}
    (hbuild : build config = .ok fresh) (moves : List Move)
    (hwithin : ∀ event ∈ fresh.accepted moves, ∀ sample ∈ event.sample?, sample.PartsWithin) :
    (fresh.after moves).dashboard.OnScale ∧
      ∀ height, ((fresh.after moves).dashboard.truncate height).1.OnScale := by
  obtain ⟨hpos, hfresh⟩ := scaled_of_build hbuild
  have hafter := hfresh.after hpos hwithin
  exact ⟨hafter.dashboard.onScale, fun height => (hafter.dashboard.truncate hpos height).onScale⟩

/-- The window grows between two blocks, of which the second is rolled back, and traffic is measured. A
rollback of the other block as well leaves no push time and so no share of it. -/
theorem readouts_on_scale_rollbacks :
    let config : EngineConfig := { chartHistory := 2, speedHistory := 2, window := 1 }
    let work : List Move := [.step .ingestion, .step .ingestion, .step .commit]
    let block (height totalTime validationTime : UInt64) : List Move :=
      .submit (.sample (some ({ height, totalTime, validationTime }, 1000))) :: work
    let measure (uploaded : UInt64) (now : Int64) : List Move :=
      [.setVolume { uploaded, downloaded := 0 }, .step (.measurement now), .step .report, .step .commit]
    let moves : List Move := List.flatten [[.start], block 5 10 4, [.setWindow 2], block 7 21 21,
      measure 100 1000, measure 400 3000, .submit (.blockPopped 6) :: work]
    let shown (dashboard : Dashboard Rat) (name : String) : Option (Rat × Rat) :=
      (dashboard.readouts.get? name).map fun readout => (readout.value, readout.max)
    ∃ fresh : Engine Rat, build config = .ok fresh ∧ (fresh.after moves).dashboard.OnScale ∧
      ((fresh.after moves).dashboard.truncate 1).1.OnScale ∧
      shown (fresh.after moves).dashboard "push_time" = some (10, 10) ∧
      shown (fresh.after moves).dashboard "validation_time" = some (40, 100) ∧
      shown (fresh.after moves).dashboard "upload_speed" = some (150, 150) ∧
      shown ((fresh.after moves).dashboard.truncate 1).1 "validation_time" = some (0, 100) := by
  intro config work block measure moves shown
  have hrun : ∀ fresh ∈ (build config : Except SizeError (Engine Rat)).toOption,
      (∀ event ∈ fresh.accepted moves, ∀ sample ∈ event.sample?, sample.PartsWithin) ∧
      shown (fresh.after moves).dashboard "push_time" = some (10, 10) ∧
      shown (fresh.after moves).dashboard "validation_time" = some (40, 100) ∧
      shown (fresh.after moves).dashboard "upload_speed" = some (150, 150) ∧
      shown ((fresh.after moves).dashboard.truncate 1).1 "validation_time" = some (0, 100) := by
    decide +kernel
  obtain ⟨fresh, -, hbuild, -⟩ :=
    exists_build (α := Rat) (show 0 < config.window by decide) (by decide)
  obtain ⟨hwithin, hshown⟩ := hrun fresh (by rw [hbuild]; rfl)
  obtain ⟨hlive, hcut⟩ := readouts_on_scale hbuild moves hwithin
  exact ⟨fresh, hbuild, hlive, hcut 1, hshown⟩

end Engine

end NodeTelemetry
