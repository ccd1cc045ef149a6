import NodeTelemetry.Ingestion
import NodeTelemetry.Group
import NodeTelemetry.Proofs.Computation
import NodeTelemetry.Proofs.Dashboard.Run

/-!
The block groups. However the accumulators stand, a sample yields one point and one readout for each
metric that is charted along heights, both of one reading of the accumulators after the sample.
-/

set_option autoImplicit false

namespace NodeTelemetry

open Scalar (ofWord ofTime)
open NodeTelemetry.Computation (fed fed_of_not_mem Yields yields_pure yields_reach yields_feed yields_forM_feed
  yields_mapM_reach yields_mapM_feed)

/-- The metrics that are charted along heights, in display order. -/
def Metric.alongHeights : List Metric :=
  all.filter fun metric => metric.descriptor.charted && metric.descriptor.axis = .height

theorem Metric.mem_alongHeights {metric : Metric} :
    metric ∈ alongHeights ↔ metric.descriptor.charted = true ∧ metric.descriptor.axis = .height := by
  simp [alongHeights, mem_all]

/-- The metrics whose accumulators a sample feeds, in the order of feeding. -/
def Metric.fedBySample : List Metric :=
  [pushTime, validationTime, txLoopTime, housekeepingTime, txApplyTime, atTime, subscriptionTime,
    blockApplyTime, commitTime, miscTime, payloadSize, blockArrival, windowTransactions,
    windowSystemTransactions, blocksPerSecond, allTransactionsPerSecond, systemTransactionsPerSecond,
    atCountPerBlock, allTransactionsPerBlock, systemTransactionsPerBlock]

namespace Group

def timedMetrics : List Metric := Timing.components.map (·.1) ++ [.payloadFullness]

def rateMetrics : List Metric :=
  [.blocksPerSecond, .allTransactionsPerSecond, .systemTransactionsPerSecond, .atCountPerBlock]

def countMetrics : List Metric := [.allTransactionsPerBlock, .systemTransactionsPerBlock]

private theorem alongHeights_eq :
    Metric.alongHeights = timedMetrics ++ (rateMetrics ++ countMetrics) := by
  decide

variable {α : Type}

private theorem runAll_cons {group : Group α} {sample : BlockSample} {receivedAt : Int64}
    {set after : AccumulatorSet α} {updates : List (Update α)}
    (h : group.compute sample receivedAt set = (.updates updates, after)) (index : Nat)
    (groups : List (Group α)) :
    runAll sample receivedAt index (group :: groups) set =
      (⟨index, .ok updates⟩ :: (runAll sample receivedAt (index + 1) groups after).1,
        (runAll sample receivedAt (index + 1) groups after).2) := by
  simp only [runAll, h, settled]

variable [Scalar α]

/-- What a chart along heights shows of an average: parts of the push time in whole milliseconds. -/
def shown (metric : Metric) (average : α) : α :=
  if metric.descriptor.group = .timing then Timing.wholeOf average else average

/-- What a sample shows of a metric, by the accumulators after it. -/
def reading (sample : BlockSample) (acc : Metric → Accumulator α) (metric : Metric) : Reading α :=
  if metric = .payloadFullness then Timing.payloadReading sample (acc .payloadSize)
  else
    { Reading.of (shown metric (acc metric).average) (shown metric (acc metric).max) with
      total := if metric.descriptor.group = .timing then Timing.wholeOf (acc .pushTime).average
        else 0 }

def figures (sample : BlockSample) (acc : Metric → Accumulator α) (metric : Metric) :
    List (Update α) :=
  [.point metric.name (ofWord sample.height) (reading sample acc metric).value,
    .readout (.render metric.descriptor (reading sample acc metric))]

/-- What a sample asks of the dashboard, by the accumulators after it. -/
def blockBatch (sample : BlockSample) (acc : Metric → Accumulator α) : Batch α :=
  ⟨.block sample.height, Metric.alongHeights.flatMap (figures sample acc)⟩

variable {acc : Metric → Accumulator α}

theorem fed_append (acc : Metric → Accumulator α) (first second : List (Metric × α)) :
    fed acc (first ++ second) = fed (fed acc first) second := by
  induction first generalizing acc with
  | nil => rfl
  | cons feed first ih => exact ih _

/-! ### The three groups -/

/-- What the timing group feeds: the parts of the push time, and the size of the payload. -/
def timed (sample : BlockSample) : List (Metric × α) :=
  (Timing.components.map fun part => (part.1, ofWord (part.2 sample))) ++
    [(.payloadSize, ofWord sample.payloadSize)]

theorem timing_yields (sample : BlockSample) (acc : Metric → Accumulator α) :
    (Timing.computation .timing sample).Yields acc
      (timedMetrics.flatMap (figures sample (fed acc (timed sample)))) (fed acc (timed sample)) := by
  let times : List (Metric × α) :=
    Timing.components.map fun part => (part.1, ofWord (part.2 sample))
  let size : List (Metric × α) := [(.payloadSize, ofWord sample.payloadSize)]
  have htimed : timed sample = times ++ size := rfl
  have hkeeps : ∀ metric ∈ Timing.components.map (·.1),
      fed acc (times ++ size) metric = fed acc times metric := by
    intro metric hmetric
    have hne : metric ≠ .payloadSize := by
      revert metric
      decide
    rw [fed_append]
    exact Function.update_of_ne hne _ _
  have hpush : fed acc (times ++ size) .pushTime = fed acc times .pushTime :=
    hkeeps .pushTime (by decide)
  have hparts : (Timing.components.map fun part =>
        Timing.component part.1 (ofWord sample.height)
          (Timing.wholeOf (fed acc times .pushTime).average) (fed acc times part.1)).flatten =
      (Timing.components.map (·.1)).flatMap (figures sample (fed acc (times ++ size))) := by
    rw [List.flatMap_map, List.flatMap_def]
    refine congrArg List.flatten (List.map_congr_left fun part hpart => ?_)
    have hmem : part.1 ∈ Timing.components.map (·.1) := List.mem_map_of_mem hpart
    have htiming : part.1.descriptor.group = .timing ∧ part.1 ≠ .payloadFullness := by
      revert hmem
      generalize part.1 = metric
      revert metric
      decide
    rw [figures, reading, if_neg htiming.2, if_pos htiming.1, shown, if_pos htiming.1,
      hkeeps part.1 hmem, hpush, shown, if_pos htiming.1]
    rfl
  rw [htimed]
  unfold Timing.computation
  refine (yields_forM_feed Timing.components (·.1) (fun part => ofWord (part.2 sample))
    (by decide)).bind ?_
  refine (yields_reach (by decide)).bind ?_
  refine (yields_mapM_reach Timing.components (·.1) (by decide) fun part accumulator =>
    Timing.component part.1 (ofWord sample.height)
      (Timing.wholeOf (fed acc times .pushTime).average) accumulator).bind ?_
  refine (yields_feed (by decide) _).bind ?_
  rw [timedMetrics, List.flatMap_append, ← hparts, fed_append]
  exact yields_pure _

theorem figures_eq_averaged {metric : Metric} (h : metric ∈ rateMetrics ++ countMetrics)
    (sample : BlockSample) (acc : Metric → Accumulator α) :
    figures sample acc metric = averaged metric (ofWord sample.height) (acc metric) := by
  have hall : ∀ metric ∈ rateMetrics ++ countMetrics,
      metric.descriptor.group ≠ .timing ∧ metric.descriptor.charted = true := by decide
  obtain ⟨hgroup, hcharted⟩ := hall metric h
  have hpayload : metric ≠ .payloadFullness := by
    rintro rfl
    exact hgroup rfl
  rw [figures, reading, if_neg hpayload, if_neg hgroup, shown, if_neg hgroup, shown, if_neg hgroup]
  exact (if_pos hcharted).symm

private theorem flatten_averaged {β : Type} {items : List β} {owner : β → Metric}
    (h : ∀ item ∈ items, owner item ∈ rateMetrics ++ countMetrics) (sample : BlockSample)
    (acc : Metric → Accumulator α) :
    (items.map fun item => averaged (owner item) (ofWord sample.height) (acc (owner item))).flatten =
      (items.map owner).flatMap (figures sample acc) := by
  rw [List.flatMap_map, List.flatMap_def]
  refine congrArg List.flatten (List.map_congr_left fun item hitem => ?_)
  rw [figures_eq_averaged (h item hitem)]

def arrived (sample : BlockSample) (receivedAt : Int64) : List (Metric × α) :=
  [(.blockArrival, ofTime receivedAt), (.windowTransactions, ofWord sample.allTransactionCount),
    (.windowSystemTransactions, ofWord sample.systemTransactionCount)]

/-- The rates that the throughput group feeds, by the window histories after the sample. -/
def rated (sample : BlockSample) (histories : Metric → Accumulator α) : List (Metric × α) :=
  Throughput.rates sample (histories .blockArrival) (histories .windowTransactions)
    (histories .windowSystemTransactions)

/-- What the throughput group feeds: the window histories, and the rates that they then give. -/
def throughputFeeds (sample : BlockSample) (receivedAt : Int64) (acc : Metric → Accumulator α) :
    List (Metric × α) :=
  arrived sample receivedAt ++ rated sample (fed acc (arrived sample receivedAt))

theorem throughput_yields (sample : BlockSample) (receivedAt : Int64)
    (acc : Metric → Accumulator α) :
    (Throughput.computation .throughput sample receivedAt).Yields acc
      (rateMetrics.flatMap (figures sample (fed acc (throughputFeeds sample receivedAt acc))))
      (fed acc (throughputFeeds sample receivedAt acc)) := by
  let histories := fed acc (arrived sample receivedAt)
  let rates := rated sample histories
  have hnames : rates.map (·.1) = rateMetrics := rfl
  have howned : ∀ rate ∈ rates, rate.1.OwnedBy .throughput := by
    intro rate hrate
    have hmem : rate.1 ∈ rates.map (·.1) := List.mem_map_of_mem hrate
    rw [hnames] at hmem
    revert hmem
    generalize rate.1 = metric
    revert metric
    decide
  have hrated : ∀ rate ∈ rates, rate.1 ∈ rateMetrics ++ countMetrics := fun rate hrate =>
    List.mem_append_left _ (hnames ▸ List.mem_map_of_mem hrate)
  have hrates : Computation.Yields _ histories _ _ :=
    yields_mapM_feed rates (·.1) (·.2) howned (by rw [hnames]; decide)
      fun rate accumulator => averaged rate.1 (ofWord sample.height) accumulator
  rw [show rates.map (fun rate => (rate.1, rate.2)) = rates from List.map_id' rates] at hrates
  rw [throughputFeeds, fed_append]
  unfold Throughput.computation
  refine (yields_reach (by decide)).bind ?_
  refine (yields_reach (by decide)).bind ?_
  refine (yields_reach (by decide)).bind ?_
  refine (yields_feed (by decide) _).bind ?_
  refine (yields_feed (by decide) _).bind ?_
  refine (yields_feed (by decide) _).bind ?_
  rw [← hnames, ← flatten_averaged hrated]
  exact hrates.bind (yields_pure _)

theorem transactions_yields (sample : BlockSample) (acc : Metric → Accumulator α) :
    ∃ feeds : List (Metric × α),
      feeds.map (·.1) = countMetrics ∧
      (Transactions.computation .transactions sample).Yields acc
        (countMetrics.flatMap (figures sample (fed acc feeds))) (fed acc feeds) := by
  refine ⟨Transactions.counts.map fun count => (count.1, ofWord (count.2 sample)), rfl, ?_⟩
  unfold Transactions.computation
  refine (yields_mapM_feed Transactions.counts (·.1) (fun count => ofWord (count.2 sample))
    (by decide) (by decide) fun count accumulator =>
      averaged count.1 (ofWord sample.height) accumulator).bind ?_
  rw [flatten_averaged (by decide)]
  exact yields_pure _

/-! ### A sample through all groups -/

private theorem figures_congr {acc acc' : Metric → Accumulator α} {metric : Metric}
    (h : ∀ other : Metric, other.descriptor.group = metric.descriptor.group → acc other = acc' other)
    (sample : BlockSample) : figures sample acc metric = figures sample acc' metric := by
  have hreading : reading sample acc metric = reading sample acc' metric := by
    unfold reading
    by_cases hpayload : metric = .payloadFullness
    · subst hpayload
      rw [if_pos rfl, if_pos rfl, h .payloadSize rfl]
    · rw [if_neg hpayload, if_neg hpayload, h metric rfl]
      by_cases htiming : metric.descriptor.group = .timing
      · rw [if_pos htiming, if_pos htiming, h .pushTime htiming.symm]
      · rw [if_neg htiming, if_neg htiming]
  rw [figures, figures, hreading]

private theorem figures_fed {feeds : List (Metric × α)} {metric : Metric}
    (h : ∀ other ∈ feeds.map (·.1), other.descriptor.group ≠ metric.descriptor.group)
    (sample : BlockSample) (acc : Metric → Accumulator α) :
    figures sample (fed acc feeds) metric = figures sample acc metric := by
  refine figures_congr (fun other hother => fed_of_not_mem fun hmem => ?_) sample
  exact h other hmem hother

/-- The feeds of a sample: each of its accumulators takes one value, and those of the parts of the push
time take the times of the sample. -/
structure FedBy (sample : BlockSample) (feeds : List (Metric × α)) : Prop where
  metrics : feeds.map (·.1) = Metric.fedBySample
  times : ∀ part ∈ Timing.components, (part.1, ofWord (part.2 sample)) ∈ feeds

/-- The block groups never fail, and what a sample yields is told by the accumulators after it. -/
theorem exists_process_blockGroups {ingestion : Ingestion α} {acc : Metric → Accumulator α}
    (h : ingestion.accumulators.Shows acc) (route : ErrorRoute) (sample : BlockSample)
    (receivedAt : Int64) :
    ∃ feeds : List (Metric × α), FedBy sample feeds ∧
      (ingestion.process blockGroups route sample receivedAt).1.accumulators.Shows (fed acc feeds) ∧
      (ingestion.process blockGroups route sample receivedAt).2 = blockBatch sample (fed acc feeds) := by
  let timed : List (Metric × α) := timed sample
  let rated : List (Metric × α) := throughputFeeds sample receivedAt (fed acc timed)
  have hthroughput := throughput_yields sample receivedAt (fed acc timed)
  obtain ⟨counted, hcounted, htransactions⟩ :=
    transactions_yields sample (fed (fed acc timed) rated)
  obtain ⟨first, hfirst, hshows⟩ := timing_yields sample acc _ h
  obtain ⟨second, hsecond, hshows⟩ := hthroughput _ hshows
  obtain ⟨third, hthird, hshows⟩ := htransactions _ hshows
  have hall : fed (fed (fed acc timed) rated) counted = fed acc (timed ++ (rated ++ counted)) := by
    rw [fed_append, fed_append]
  have hrest : (rated ++ counted).map (·.1) = [Metric.blockArrival, .windowTransactions,
      .windowSystemTransactions] ++ rateMetrics ++ countMetrics := by
    rw [List.map_append, hcounted]
    rfl
  -- what a group shows is not touched by the groups after it
  have htimedKept : ∀ metric ∈ timedMetrics, figures sample (fed acc timed) metric =
      figures sample (fed acc (timed ++ (rated ++ counted))) metric := by
    intro metric hmetric
    rw [fed_append]
    refine (figures_fed (fun other hother => ?_) sample (fed acc timed)).symm
    rw [hrest] at hother
    revert other metric
    decide
  have hratedKept : ∀ metric ∈ rateMetrics, figures sample (fed (fed acc timed) rated) metric =
      figures sample (fed acc (timed ++ (rated ++ counted))) metric := by
    intro metric hmetric
    rw [← hall]
    refine (figures_fed (fun other hother => ?_) sample (fed (fed acc timed) rated)).symm
    rw [hcounted] at hother
    revert other metric
    decide
  rw [List.flatMap_congr htimedKept] at hfirst
  rw [List.flatMap_congr hratedKept] at hsecond
  rw [hall] at hthird hshows
  refine ⟨timed ++ (rated ++ counted), ⟨?_, fun part hpart => ?_⟩, ?_⟩
  · rw [List.map_append, hrest]
    rfl
  · exact List.mem_append_left _ (List.mem_append_left _ (List.mem_map_of_mem hpart))
  generalize fed acc (timed ++ (rated ++ counted)) = last at *
  have htimingRun : (timing .timing).compute sample receivedAt ingestion.accumulators =
      (.updates (timedMetrics.flatMap (figures sample last)), first) := by
    simp only [timing, ofComputation, hfirst]
  have hthroughputRun : (throughput .throughput).compute sample receivedAt first =
      (.updates (rateMetrics.flatMap (figures sample last)), second) := by
    simp only [throughput, ofComputation, hsecond]
  have htransactionsRun : (transactions .transactions).compute sample receivedAt second =
      (.updates (countMetrics.flatMap (figures sample last)), third) := by
    simp only [transactions, ofComputation, hthird]
  rw [Ingestion.process, blockGroups, runAll_cons htimingRun, runAll_cons hthroughputRun,
    runAll_cons htransactionsRun]
  refine ⟨hshows, ?_⟩
  rw [blockBatch, alongHeights_eq, List.flatMap_append, List.flatMap_append]
  simp [runAll, Batch.ofCompletions, Completion.collect, Completion.place]

/-! ### The batch of a sample -/

private theorem pointFor?_figures (sample : BlockSample) (acc : Metric → Accumulator α)
    (metric other : Metric) :
    (figures sample acc other).filterMap (Update.pointFor? metric.name) =
      if other = metric then [⟨ofWord sample.height, (reading sample acc metric).value⟩] else [] := by
  by_cases h : other = metric
  · subst h
    simp [figures, Update.pointFor?]
  · have hname : other.name ≠ metric.name := fun hname => h (Metric.name_injective hname)
    simp [figures, Update.pointFor?, h, hname]

theorem pointsFor_blockBatch (sample : BlockSample) (acc : Metric → Accumulator α) {metric : Metric}
    (h : metric ∈ Metric.alongHeights) :
    (blockBatch sample acc).pointsFor metric.name =
      [⟨ofWord sample.height, (reading sample acc metric).value⟩] := by
  rw [Batch.pointsFor, blockBatch, List.filterMap_flatMap]
  simp only [pointFor?_figures]
  have hnodup : Metric.alongHeights.Nodup := by decide
  generalize Metric.alongHeights = metrics at h hnodup
  induction metrics with
  | nil => cases h
  | cons first metrics ih =>
    rw [List.nodup_cons] at hnodup
    rw [List.flatMap_cons]
    rcases List.mem_cons.1 h with rfl | h
    · have hnone : metrics.flatMap (fun other => if other = metric
          then [(⟨ofWord sample.height, (reading sample acc metric).value⟩ : Point α)] else []) = [] := by
        rw [List.flatMap_eq_nil_iff]
        intro other hother
        have hother : other ≠ metric := by
          rintro rfl
          exact hnodup.1 hother
        rw [if_neg hother]
      rw [if_pos rfl, hnone]
      rfl
    · have hne : first ≠ metric := fun heq => hnodup.1 (heq ▸ h)
      rw [if_neg hne, ih h hnodup.2]
      rfl

theorem readouts_blockBatch (sample : BlockSample) (acc : Metric → Accumulator α) :
    (blockBatch sample acc).readouts =
      Metric.alongHeights.map fun metric =>
        Readout.render metric.descriptor (reading sample acc metric) := by
  rw [Batch.readouts, blockBatch, List.filterMap_flatMap, List.map_eq_flatMap]
  rfl

theorem latest?_readouts_blockBatch (sample : BlockSample) (acc : Metric → Accumulator α)
    {metric : Metric} (h : metric ∈ Metric.alongHeights) :
    Readout.latest? metric.name (blockBatch sample acc).readouts =
      some (.render metric.descriptor (reading sample acc metric)) := by
  let readout := Readout.render metric.descriptor (reading sample acc metric)
  have hname : readout.name = metric.name := by
    rw [Readout.render_name, Metric.descriptor_name]
  rw [readouts_blockBatch, ← hname]
  refine Readout.latest?_of_unique (List.mem_map_of_mem h) fun other hother hsame => ?_
  obtain ⟨shown, -, rfl⟩ := List.mem_map.1 hother
  rw [hname, Readout.render_name, Metric.descriptor_name] at hsame
  rw [Metric.name_injective hsame]

end Group

end NodeTelemetry
