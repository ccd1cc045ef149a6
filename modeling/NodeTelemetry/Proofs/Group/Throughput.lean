import NodeTelemetry.Proofs.Accumulator.Dominance
import NodeTelemetry.Proofs.Accumulator.Sizes
import NodeTelemetry.Proofs.Group.Wiring

/-!
The throughput group against its definition. A `Log` is what an observer of the samples writes down: the
window, each sample with its arrival, and the rates that the definition gives. The group, which keeps
three histories of bounded length and their running sums, feeds the same rates.
-/

set_option autoImplicit false

namespace NodeTelemetry.Group.Throughput

open Scalar (ofWord ofTime)
open NodeTelemetry.Computation (fed fed_of_mem fed_of_not_mem exists_fed_eq_insert
  run_reach_bind_of_error)
open NodeTelemetry.Accumulator (Follows Peaked)

/-! ### The definition -/

structure Log where
  /-- The window that was granted last. -/
  window : Nat
  /-- The samples with their arrivals, newest first. -/
  samples : List (BlockSample × Int64)
  /-- What each metric was given for the samples, and the means in the window. -/
  ledger : Metric → Ledger

namespace Log

def covered (log : Log) : Nat := min log.samples.length log.window

/-- The arrival of the sample that many samples before the newest, in milliseconds. -/
def arrival (log : Log) (before : Nat) : Rat :=
  (log.samples[before]?).elim 0 fun arrived => (arrived.2.toInt : Rat)

/-- The time from the first to the last arrival that the window covers. -/
def span (log : Log) : Rat := log.arrival 0 - log.arrival (log.covered - 1)

def sum (log : Log) (count : BlockSample → UInt64) : Nat :=
  ((log.samples.take log.covered).map fun arrived => (count arrived.1).toNat).sum

/-- A number over the span as a rate per second; none over no time. -/
def perSecond (log : Log) (number : Rat) : Rat :=
  if 0 < log.span then number * 1000 / log.span else 0

def value (log : Log) : Metric → Rat
  | .blocksPerSecond => log.perSecond log.covered
  | .allTransactionsPerSecond => log.perSecond (log.sum (·.allTransactionCount))
  | .systemTransactionsPerSecond => log.perSecond (log.sum (·.systemTransactionCount))
  | .atCountPerBlock => (log.samples.head?).elim 0 fun arrived => (arrived.1.atCount.toNat : Rat)
  | _ => 0

def opening (window : Nat) : Log := ⟨window, [], fun _ => .opening window⟩

def enter (log : Log) (sample : BlockSample) (receivedAt : Int64) : Log :=
  let arrived := { log with samples := (sample, receivedAt) :: log.samples }
  { arrived with ledger := fun metric => (log.ledger metric).enter (arrived.value metric) }

def resize (log : Log) (window : Nat) : Log :=
  { log with window, ledger := fun metric => { log.ledger metric with window } }

end Log

/-! ### Uses -/

/-- A use of the accumulators: the group computes a sample, or a window is asked of all of them. -/
inductive Use where
  | sample (sample : BlockSample) (receivedAt : Int64)
  | setWindow (window : Nat)
  deriving Repr, DecidableEq

/-- The accumulators after a use. A window that is refused changes nothing. -/
def use (set : AccumulatorSet Rat) : Use → AccumulatorSet Rat
  | .sample sample receivedAt => ((throughput .throughput).compute sample receivedAt set).2
  | .setWindow window =>
    match set.setWindow window with
    | .ok changed => changed
    | .error _ => set

def afterUses (set : AccumulatorSet Rat) (uses : List Use) : AccumulatorSet Rat := uses.foldl use set

namespace Log

def note (room : Nat) (log : Log) : Use → Log
  | .sample sample receivedAt => log.enter sample receivedAt
  | .setWindow window => if 0 < window ∧ window ≤ room then log.resize window else log

def noteAll (room : Nat) (log : Log) (uses : List Use) : Log := uses.foldl (note room) log

end Log

/-! ### The first arrival in the window -/

section index

variable {β : Type} [Scalar β]

private theorem size_insert_pos (acc : Accumulator β) (value : β) :
    0 < (acc.insert value).size := by
  have hcapacity := acc.capacity_pos
  show 0 < (acc.insert value).values.length
  rw [Accumulator.insert_values, List.length_take, List.length_cons]
  omega

/-- The index of the first arrival in the window never underflows, and is that of an arrival that is
kept. -/
theorem index_lt {arrivals : Accumulator β} (hsize : 0 < arrivals.size) :
    0 < inWindow arrivals ∧ inWindow arrivals ≤ arrivals.size ∧
      arrivals.size - inWindow arrivals < arrivals.size ∧
      arrivals.values[inWindow arrivals - 1]? =
        some (arrivals.get (arrivals.size - inWindow arrivals)) := by
  have hlength : arrivals.values.length = arrivals.size := rfl
  have hcovers : inWindow arrivals = min arrivals.size arrivals.window := rfl
  have hwindow := arrivals.window_pos
  have hpos : 0 < inWindow arrivals := by omega
  have hle : inWindow arrivals ≤ arrivals.size := by omega
  have hlt : arrivals.size - inWindow arrivals < arrivals.size := by omega
  have hkept : inWindow arrivals - 1 < arrivals.values.length := by omega
  -- the histories are counted from the oldest here and from the newest there
  have hposition : arrivals.values.length - 1 - (arrivals.size - inWindow arrivals) =
      inWindow arrivals - 1 := by omega
  refine ⟨hpos, hle, hlt, ?_⟩
  rw [Accumulator.get, List.getElem?_reverse hlt, hposition, List.getElem?_eq_getElem hkept]
  rfl

end index

/-! ### The accumulators and the log -/

/-- The histories of counts, with the counts of a sample that they take. -/
def counts : List (Metric × (BlockSample → UInt64)) :=
  [(.windowTransactions, (·.allTransactionCount)),
    (.windowSystemTransactions, (·.systemTransactionCount))]

/-- The window histories hold what the log says, as far back as they go. -/
structure Arrived (acc : Metric → Accumulator Rat) (log : Log) : Prop where
  window : (acc .blockArrival).window = log.window
  arrivals : (acc .blockArrival).values =
    (log.samples.map fun arrived => ofTime arrived.2).take (acc .blockArrival).capacity
  counted : ∀ counted ∈ counts, ∃ ledger : Ledger, (acc counted.1).Follows ledger ∧
    ledger.window = log.window ∧
    ledger.values = log.samples.map fun arrived => ofWord (counted.2 arrived.1)

variable {acc : Metric → Accumulator Rat} {log : Log}

/-- Counts are not negative, so their running sum is never floored. -/
theorem counted_nonneg {samples : List (BlockSample × Int64)} {count : BlockSample → UInt64} :
    ∀ value ∈ samples.map fun arrived => (ofWord (count arrived.1) : Rat), 0 ≤ value :=
  List.forall_mem_map.2 fun _ _ => Nat.cast_nonneg _

namespace Arrived

private theorem enter (h : Arrived acc log) (sample : BlockSample) (receivedAt : Int64) :
    Arrived (fed acc (arrived sample receivedAt)) (log.enter sample receivedAt) := by
  have hnodup : ((arrived (α := Rat) sample receivedAt).map (·.1)).Nodup := by
    show [Metric.blockArrival, .windowTransactions, .windowSystemTransactions].Nodup
    decide
  have harrival : fed acc (arrived sample receivedAt) .blockArrival =
      (acc .blockArrival).insert (ofTime receivedAt) :=
    fed_of_mem hnodup List.mem_cons_self
  constructor
  · rw [harrival, Accumulator.insert_window]
    exact h.window
  · rw [harrival, Accumulator.insert_values, h.arrivals, Accumulator.insert_capacity,
      Accumulator.take_cons_take]
    rfl
  · intro counted hcounted
    have hmem : (counted.1, ofWord (counted.2 sample)) ∈ arrived (α := Rat) sample receivedAt := by
      simp only [counts, List.mem_cons, List.not_mem_nil, or_false] at hcounted
      rcases hcounted with rfl | rfl
      · exact List.mem_cons_of_mem _ List.mem_cons_self
      · exact List.mem_cons_of_mem _ (List.mem_cons_of_mem _ List.mem_cons_self)
    obtain ⟨ledger, hfollows, hwindow, hvalues⟩ := h.counted counted hcounted
    have hnonneg : ∀ entered ∈ ofWord (counted.2 sample) :: ledger.values, (0 : Rat) ≤ entered := by
      rw [hvalues]
      exact List.forall_mem_cons.2 ⟨Nat.cast_nonneg _, counted_nonneg⟩
    rw [fed_of_mem hnodup hmem]
    refine ⟨ledger.enter (ofWord (counted.2 sample)), hfollows.insert hnonneg, hwindow, ?_⟩
    show ofWord (counted.2 sample) :: ledger.values = _
    rw [hvalues]
    rfl

private theorem resized (h : Arrived acc log) {window : Nat} (hpos : 0 < window)
    (hle : ∀ metric ∈ [Metric.blockArrival, .windowTransactions, .windowSystemTransactions],
      window ≤ (acc metric).capacity) :
    Arrived (fun metric => (acc metric).resized window) (log.resize window) := by
  have hfits : (acc .blockArrival).Fits window := ⟨hpos, hle .blockArrival (by decide)⟩
  constructor
  · exact (Accumulator.rewindowed_resized hfits).window
  · rw [Accumulator.resized_values, Accumulator.resized_capacity]
    exact h.arrivals
  · intro counted hcounted
    have hmetric : ∀ counted ∈ counts, counted.1 ∈
        [Metric.blockArrival, .windowTransactions, .windowSystemTransactions] := by
      simp [counts]
    obtain ⟨ledger, hfollows, -, hvalues⟩ := h.counted counted hcounted
    have hnonneg : ∀ value ∈ ledger.values, 0 ≤ value := by
      rw [hvalues]
      exact counted_nonneg
    have hresized := hfollows.resized hnonneg window
    rw [Ledger.note, if_pos ⟨hpos, hle counted.1 (hmetric counted hcounted)⟩] at hresized
    exact ⟨{ ledger with window }, hresized, rfl, hvalues⟩

private theorem inWindow_eq (h : Arrived acc log) : inWindow (acc .blockArrival) = log.covered := by
  have hsize : (acc .blockArrival).size =
      min (acc .blockArrival).capacity log.samples.length := by
    show (acc .blockArrival).values.length = _
    rw [h.arrivals, List.length_take, List.length_map]
  have hwindow := (acc .blockArrival).window_le_capacity
  rw [h.window] at hwindow
  show min (acc .blockArrival).size (acc .blockArrival).window = _
  rw [hsize, h.window, Log.covered]
  omega

private theorem getElem?_values (h : Arrived acc log) {before : Nat}
    (hlt : before < (acc .blockArrival).capacity) :
    ((acc .blockArrival).values[before]?).getD 0 = log.arrival before := by
  rw [h.arrivals, List.getElem?_take_of_lt hlt, List.getElem?_map, Log.arrival]
  cases log.samples[before]? with
  | none => rfl
  | some arrived => rfl

private theorem span_eq (h : Arrived acc log) (hsome : log.samples ≠ []) :
    span (acc .blockArrival) = log.span := by
  have hsize : 0 < (acc .blockArrival).size := by
    have hcapacity := (acc .blockArrival).capacity_pos
    have hlength : 0 < log.samples.length := List.length_pos_of_ne_nil hsome
    show 0 < (acc .blockArrival).values.length
    rw [h.arrivals, List.length_take, List.length_map]
    omega
  obtain ⟨hpos, -, -, hfirst⟩ := index_lt hsize
  have hnewest : (acc .blockArrival).last = log.arrival 0 := by
    rw [← h.getElem?_values (acc .blockArrival).capacity_pos, ← List.head?_eq_getElem?]
    rfl
  have hlt : inWindow (acc .blockArrival) - 1 < (acc .blockArrival).capacity := by
    have hcovers : inWindow (acc .blockArrival) =
        min (acc .blockArrival).size (acc .blockArrival).window := rfl
    have hwindow := (acc .blockArrival).window_le_capacity
    omega
  have holdest := h.getElem?_values hlt
  rw [hfirst, Option.getD_some, h.inWindow_eq] at holdest
  rw [span, Log.span, hnewest, h.inWindow_eq, holdest]

private theorem windowSum_eq (h : Arrived acc log) (counted : Metric × (BlockSample → UInt64))
    (hcounted : counted ∈ counts) : (acc counted.1).windowSum = log.sum counted.2 := by
  obtain ⟨ledger, hfollows, hwindow, hvalues⟩ := h.counted counted hcounted
  have hnonneg : ∀ value ∈ ledger.values, 0 ≤ value := by
    rw [hvalues]
    exact counted_nonneg
  have hcovered : log.samples.take log.window = log.samples.take log.covered := by
    rw [List.take_eq_take_min, Log.covered, Nat.min_comm]
  rw [(hfollows.told hnonneg).1, Ledger.total, hvalues, hwindow, ← List.map_take, hcovered, Log.sum,
    Nat.cast_list_sum, List.map_map]
  rfl

private theorem rated_eq (h : Arrived acc log) {sample : BlockSample} {receivedAt : Int64}
    {earlier : List (BlockSample × Int64)} (hsamples : log.samples = (sample, receivedAt) :: earlier) :
    rated sample acc = rateMetrics.map fun metric => (metric, log.value metric) := by
  have hspan := h.span_eq (by rw [hsamples]; exact List.cons_ne_nil _ _)
  have hrate : ∀ number : Rat, perSecond (span (acc .blockArrival)) number = log.perSecond number := by
    intro number
    rw [perSecond, hspan, Log.perSecond]
    simp only [Scalar.lt_rat]
    rfl
  have htransactions := h.windowSum_eq (.windowTransactions, _) List.mem_cons_self
  have hsystem := h.windowSum_eq (.windowSystemTransactions, _)
    (List.mem_cons_of_mem _ List.mem_cons_self)
  have hautomated : log.value .atCountPerBlock = ofWord sample.atCount := by
    show (log.samples.head?).elim 0 _ = _
    rw [hsamples]
    rfl
  simp only [rated, rates, hrate, htransactions, hsystem, h.inWindow_eq, ← hautomated]
  rfl

end Arrived

private theorem Log.value_nonneg (log : Log) (metric : Metric) : 0 ≤ log.value metric := by
  have hrate : ∀ number : Rat, 0 ≤ number → 0 ≤ log.perSecond number := by
    intro number hnumber
    unfold perSecond
    split
    next hspan => positivity
    next => exact le_rfl
  cases metric with
  | blocksPerSecond => exact hrate _ (Nat.cast_nonneg _)
  | allTransactionsPerSecond => exact hrate _ (Nat.cast_nonneg _)
  | systemTransactionsPerSecond => exact hrate _ (Nat.cast_nonneg _)
  | atCountPerBlock =>
    show 0 ≤ (log.samples.head?).elim 0 fun arrived => (arrived.1.atCount.toNat : Rat)
    cases log.samples.head? with
    | none => exact le_rfl
    | some arrived => exact Nat.cast_nonneg _
  | _ => exact le_rfl

def metrics : List Metric :=
  [.blockArrival, .windowTransactions, .windowSystemTransactions] ++ rateMetrics

/-- The accumulators of the group hold what the log says, as far back as they go. -/
structure Mirrors (acc : Metric → Accumulator Rat) (capacity : Nat) (log : Log) : Prop where
  capacity_eq : ∀ metric ∈ metrics, (acc metric).capacity = capacity
  arrived : Arrived acc log
  follows : ∀ metric ∈ rateMetrics, (acc metric).Follows (log.ledger metric)
  peaked : ∀ metric ∈ rateMetrics, (acc metric).Peaked
  nonneg : ∀ metric ∈ rateMetrics, ∀ value ∈ (log.ledger metric).values, 0 ≤ value

/-- What a sample asks of the display by the definition: the mean in the window, and beside it the
largest of the means that the history holds. -/
def Log.figures (log : Log) (capacity : Nat) (height : UInt64) (metric : Metric) : List (Update Rat) :=
  let mean := (log.ledger metric).mean
  let largest := ((log.ledger metric).means.take capacity).foldr max 0
  [.point metric.name (height.toNat : Rat) mean,
    .readout { name := metric.name, value := mean, max := largest, label := Label.ratio mean largest }]

namespace Mirrors

variable {capacity : Nat}

private theorem resized (h : Mirrors acc capacity log) {window : Nat} (hpos : 0 < window)
    (hle : window ≤ capacity) :
    Mirrors (fun metric => (acc metric).resized window) capacity (log.resize window) := by
  have hmetrics : ∀ metric ∈ rateMetrics, metric ∈ metrics := fun metric hmetric =>
    List.mem_append_right _ hmetric
  constructor
  · intro metric hmetric
    rw [Accumulator.resized_capacity]
    exact h.capacity_eq metric hmetric
  · refine h.arrived.resized hpos fun metric hmetric => ?_
    rw [h.capacity_eq metric (List.mem_append_left _ hmetric)]
    exact hle
  · intro metric hmetric
    have hresized := (h.follows metric hmetric).resized (h.nonneg metric hmetric) window
    rwa [Ledger.note, h.capacity_eq metric (hmetrics metric hmetric), if_pos ⟨hpos, hle⟩] at hresized
  · exact fun metric hmetric => (h.peaked metric hmetric).resized window
  · exact h.nonneg

private theorem fed_rate (h : Mirrors acc capacity log) (sample : BlockSample)
    (receivedAt : Int64) :
    (∀ metric ∈ rateMetrics, fed acc (throughputFeeds sample receivedAt acc) metric =
      (acc metric).insert ((log.enter sample receivedAt).value metric)) ∧
    ∀ metric ∉ rateMetrics, fed acc (throughputFeeds sample receivedAt acc) metric =
      fed acc (Group.arrived sample receivedAt) metric := by
  let entered := log.enter sample receivedAt
  let feeds := rateMetrics.map fun metric => (metric, entered.value metric)
  have hrated : rated sample (fed acc (Group.arrived sample receivedAt)) = feeds :=
    (h.arrived.enter sample receivedAt).rated_eq rfl
  have hnames : feeds.map (·.1) = rateMetrics := rfl
  have hnodup : (feeds.map (·.1)).Nodup := by
    rw [hnames]
    decide
  rw [throughputFeeds, fed_append, hrated]
  constructor
  · intro metric hmetric
    have hnot : ∀ metric ∈ rateMetrics,
        metric ∉ [Metric.blockArrival, .windowTransactions, .windowSystemTransactions] := by decide
    have hkept : fed acc (Group.arrived sample receivedAt) metric = acc metric :=
      fed_of_not_mem (hnot metric hmetric)
    have hmem : (metric, entered.value metric) ∈ feeds := List.mem_map.2 ⟨metric, hmetric, rfl⟩
    rw [fed_of_mem hnodup hmem, hkept]
  · intro metric hmetric
    refine fed_of_not_mem ?_
    rw [hnames]
    exact hmetric

private theorem enter (h : Mirrors acc capacity log) (sample : BlockSample) (receivedAt : Int64) :
    Mirrors (fed acc (throughputFeeds sample receivedAt acc)) capacity
      (log.enter sample receivedAt) := by
  obtain ⟨hrates, hhistories⟩ := h.fed_rate sample receivedAt
  have harrived := h.arrived.enter sample receivedAt
  have harrival := hhistories .blockArrival (by decide)
  have hcounts : ∀ counted ∈ counts, counted.1 ∉ rateMetrics := by
    simp only [counts, List.mem_cons, List.not_mem_nil, or_false]
    rintro counted (rfl | rfl) <;> decide
  constructor
  · intro metric hmetric
    have hnodup : ((throughputFeeds sample receivedAt acc).map (·.1)).Nodup := by
      show metrics.Nodup
      decide
    obtain ⟨value, hvalue⟩ : ∃ value, fed acc (throughputFeeds sample receivedAt acc) metric =
        (acc metric).insert value := exists_fed_eq_insert hnodup hmetric
    rw [hvalue, Accumulator.insert_capacity]
    exact h.capacity_eq metric hmetric
  · constructor
    · rw [harrival]
      exact harrived.window
    · rw [harrival]
      exact harrived.arrivals
    · intro counted hcounted
      rw [hhistories counted.1 (hcounts counted hcounted)]
      exact harrived.counted counted hcounted
  · intro metric hmetric
    have hvalues := List.forall_mem_cons.2
      ⟨(log.enter sample receivedAt).value_nonneg metric, h.nonneg metric hmetric⟩
    rw [hrates metric hmetric]
    exact (h.follows metric hmetric).insert hvalues
  · intro metric hmetric
    rw [hrates metric hmetric]
    exact (h.peaked metric hmetric).insert _
  · intro metric hmetric
    exact List.forall_mem_cons.2
      ⟨(log.enter sample receivedAt).value_nonneg metric, h.nonneg metric hmetric⟩

private theorem figures_eq (h : Mirrors acc capacity log) (sample : BlockSample) {metric : Metric}
    (hmetric : metric ∈ rateMetrics) :
    figures sample acc metric = log.figures capacity sample.height metric := by
  have hshown : ∀ metric ∈ rateMetrics, metric.descriptor.charted = true ∧
      metric.descriptor.formatter = some .ratio := by decide
  obtain ⟨hcharted, hformatter⟩ := hshown metric hmetric
  have hrender : ∀ mean largest : Rat, Readout.render metric.descriptor (.of mean largest) =
      ⟨metric.name, mean, largest, Label.ratio mean largest⟩ := by
    intro mean largest
    rw [Readout.render, hformatter, Metric.descriptor_name]
    rfl
  have haverage := ((h.follows metric hmetric).told (h.nonneg metric hmetric)).2
  have hmax : (acc metric).max = ((log.ledger metric).means.take capacity).foldr max 0 := by
    rw [(h.peaked metric hmetric).max_eq, (h.follows metric hmetric).averages,
      h.capacity_eq metric (List.mem_append_right _ hmetric)]
  rw [figures_eq_averaged (List.mem_append_left _ hmetric), averaged, if_pos hcharted, haverage, hmax,
    hrender]
  rfl

end Mirrors

/-! ### Runs -/

/-- The accumulators hold what the log says, and windows are granted up to some room. -/
structure Logged (set : AccumulatorSet Rat) (capacity room : Nat) (log : Log) : Prop where
  shows : ∃ acc, set.Shows acc ∧ Mirrors acc capacity log
  smallest : set.smallestCapacity = room
  room_le : room ≤ capacity

section logged

variable {set : AccumulatorSet Rat} {capacity room : Nat}

private theorem Logged.compute (h : Logged set capacity room log) (sample : BlockSample)
    (receivedAt : Int64) : let entered := log.enter sample receivedAt
    ∃ (before after : Metric → Accumulator Rat) (last : AccumulatorSet Rat),
      set.Shows before ∧
      (throughput .throughput).compute sample receivedAt set =
        (.updates (rateMetrics.flatMap (entered.figures capacity sample.height)), last) ∧
      last.Shows after ∧
      (∀ metric ∈ rateMetrics, after metric = (before metric).insert (entered.value metric)) ∧
      Logged last capacity room entered := by
  intro entered
  obtain ⟨acc, hshows, hmirrors⟩ := h.shows
  obtain ⟨last, hrun, hlast⟩ := throughput_yields sample receivedAt acc set hshows
  have hentered := hmirrors.enter sample receivedAt
  rw [List.flatMap_congr fun metric hmetric => hentered.figures_eq sample hmetric] at hrun
  refine ⟨acc, _, last, hshows, ?_, hlast, (hmirrors.fed_rate sample receivedAt).1, ?_⟩
  · simp only [throughput, ofComputation, hrun]
    rfl
  · refine ⟨⟨_, hlast, hentered⟩, ?_, h.room_le⟩
    have hcapacities := (computation .throughput sample receivedAt).capacities_run set
    rw [hrun] at hcapacities
    rw [AccumulatorSet.smallestCapacity_eq, hcapacities, ← AccumulatorSet.smallestCapacity_eq,
      h.smallest]

private theorem Logged.use (h : Logged set capacity room log) (used : Use) :
    Logged (use set used) capacity room (log.note room used) := by
  cases used with
  | sample sample receivedAt =>
    obtain ⟨before, after, last, -, hcompute, -, -, hlogged⟩ := h.compute sample receivedAt
    show Logged ((throughput .throughput).compute sample receivedAt set).2 capacity room _
    rw [hcompute]
    exact hlogged
  | setWindow window =>
    have hgranted : (∃ changed, set.setWindow window = .ok changed) ↔
        0 < window ∧ window ≤ set.smallestCapacity := AccumulatorSet.exists_setWindow_iff
    rw [h.smallest] at hgranted
    simp only [Log.note, Throughput.use]
    cases hset : set.setWindow window with
    | error error =>
      have hrefused : ¬(0 < window ∧ window ≤ room) := by
        intro hfits
        obtain ⟨changed, hchanged⟩ := hgranted.2 hfits
        cases hset.symm.trans hchanged
      rw [if_neg hrefused]
      exact h
    | ok changed =>
      have hfits := hgranted.1 ⟨changed, hset⟩
      obtain ⟨acc, hshows, hmirrors⟩ := h.shows
      rw [if_pos hfits]
      refine ⟨⟨_, hshows.setWindow hset, hmirrors.resized hfits.1 (hfits.2.trans h.room_le)⟩, ?_,
        h.room_le⟩
      show changed.smallestCapacity = room
      rw [AccumulatorSet.smallestCapacity_eq, AccumulatorSet.capacities_setWindow hset,
        ← AccumulatorSet.smallestCapacity_eq, h.smallest]

private theorem Logged.afterUses (h : Logged set capacity room log) (uses : List Use) :
    Logged (afterUses set uses) capacity room (log.noteAll room uses) := by
  induction uses generalizing set log with
  | nil => exact h
  | cons used uses ih => exact ih (h.use used)

end logged

private theorem logged_ofDescriptors {sizes : HistorySizes} {window : Nat}
    {fresh : AccumulatorSet Rat}
    (hfresh : AccumulatorSet.ofDescriptors catalogue sizes window = .ok fresh) :
    Logged fresh sizes.chart (min sizes.chart sizes.speed) (.opening window) := by
  have hfits := AccumulatorSet.fits_of_ofDescriptors hfresh
  have hpos := (hfits .height).1
  have hle : ∀ axis, window ≤ sizes.along axis := fun axis => (hfits axis).2
  obtain ⟨set, hset, hshows⟩ := AccumulatorSet.exists_ofDescriptors (α := Rat) hpos hle
  cases hset.symm.trans hfresh
  refine ⟨⟨_, hshows, ?_⟩, AccumulatorSet.smallestCapacity_ofDescriptors hfresh, Nat.min_le_left _ _⟩
  have haxis : ∀ metric ∈ metrics, metric.descriptor.axis = .height := by decide
  constructor
  · intro metric hmetric
    show sizes.along metric.descriptor.axis = sizes.chart
    rw [haxis metric hmetric]
    rfl
  · constructor
    · rfl
    · exact List.take_nil.symm
    · intro counted hcounted
      exact ⟨.opening window, Accumulator.follows_empty _ _, rfl, rfl⟩
  · exact fun metric hmetric => Accumulator.follows_empty _ _
  · exact fun metric hmetric => Accumulator.peaked_empty _ _
  · exact fun metric hmetric value hvalue => nomatch hvalue

/-! ### The definition holds -/

/-- In exact arithmetic the throughput group feeds what its definition says: over the samples that the
window covers, their number and their transactions per second between the first and the last arrival,
and none over no time; and it shows the means and the maxima of these values. The index of the first
arrival is that of one that is kept. And however the group is wired, where it fails the sample was fed
into all three window histories or into none. -/
theorem rates_follow_definition {sizes : HistorySizes} {window : Nat} {fresh : AccumulatorSet Rat}
    (hfresh : AccumulatorSet.ofDescriptors catalogue sizes window = .ok fresh) (uses : List Use)
    (sample : BlockSample) (receivedAt : Int64) :
    (let set := afterUses fresh uses
      let log := ((Log.opening window).noteAll (min sizes.chart sizes.speed) uses).enter sample receivedAt
      ∃ (before after : Metric → Accumulator Rat) (last : AccumulatorSet Rat),
        set.Shows before ∧
        (throughput .throughput).compute sample receivedAt set =
          (.updates (rateMetrics.flatMap (log.figures sizes.chart sample.height)), last) ∧
        last.Shows after ∧
        ∀ metric ∈ rateMetrics, after metric = (before metric).insert (log.value metric)) ∧
    (∀ (β : Type) [Scalar β] (acc : Accumulator β) (value : β),
      let arrivals := acc.insert value
      inWindow arrivals ≤ arrivals.size ∧ arrivals.size - inWindow arrivals < arrivals.size ∧
        arrivals.values[inWindow arrivals - 1]? =
          some (arrivals.get (arrivals.size - inWindow arrivals))) ∧
    ∀ (β : Type) [Scalar β] (view : GroupKind) (sample : BlockSample) (receivedAt : Int64)
      (set last : AccumulatorSet β) (error : EngineError),
      (throughput view).compute sample receivedAt set = (.failed error, last) →
        ((∃ history ∈ arrived (α := β) sample receivedAt,
            set.lookup view history.1.name = .error error) ∧ last = set) ∨
          ((∃ metric ∈ rateMetrics, set.lookup view metric.name = .error error) ∧
            ∀ history ∈ arrived sample receivedAt, ∃ accumulator,
              set.lookup view history.1.name = .ok accumulator ∧
                last.lookup view history.1.name = .ok (accumulator.insert history.2)) := by
  refine ⟨?_, ?_, ?_⟩
  · obtain ⟨before, after, last, hbefore, hcompute, hafter, hrates, -⟩ :=
      ((logged_ofDescriptors hfresh).afterUses uses).compute sample receivedAt
    exact ⟨before, after, last, hbefore, hcompute, hafter, hrates⟩
  · intro β _ acc value arrivals
    exact (index_lt (size_insert_pos acc value)).2
  · intro β _ view sample receivedAt set last error hcompute
    have hrun : (computation view sample receivedAt).run set = (.error error, last) := by
      simp only [throughput, ofComputation] at hcompute
      cases hended : (computation view sample receivedAt).run set with
      | mk outcome after =>
        rw [hended] at hcompute
        cases outcome with
        | ok updates => cases hcompute
        | error other =>
          cases hcompute
          rfl
    rcases run_computation view sample receivedAt set with ⟨other, hmissing, hended⟩ | ⟨hall, hfails⟩
    · rw [hrun] at hended
      cases hended
      exact .inl ⟨hmissing, rfl⟩
    · rw [hrun] at hall hfails
      exact .inr ⟨hfails error rfl, hall⟩

/-- A window that shrinks and grows again before the fourth sample, which it then covers with the two
before; and a view that owns none of the accumulators. -/
theorem rates_follow_definition_regrown :
    ∃ fresh : AccumulatorSet Rat, AccumulatorSet.ofDescriptors catalogue ⟨3, 3⟩ 2 = .ok fresh ∧
      (let set := afterUses fresh [.sample {} 0, .setWindow 1, .sample {} 10000, .setWindow 4,
          .sample {} 10500, .setWindow 3]
        ∃ (before after : Metric → Accumulator Rat) (updates : List (Update Rat))
          (last : AccumulatorSet Rat),
          set.Shows before ∧
          (throughput .throughput).compute { allTransactionCount := 6 } 13000 set =
            (.updates updates, last) ∧
          last.Shows after ∧
          after .blocksPerSecond = (before .blocksPerSecond).insert 1 ∧
          after .allTransactionsPerSecond = (before .allTransactionsPerSecond).insert 2 ∧
          ∃ label, .readout ⟨"all_transactions_per_second", 2 / 3, 2 / 3, label⟩ ∈ updates) ∧
      ∃ error, (throughput .queue).compute {} 0 fresh = (.failed error, fresh) ∧
        ∃ history ∈ arrived (α := Rat) {} 0, fresh.lookup .queue history.1.name = .error error := by
  have hpos : 0 < 2 := by decide
  have hfits : ∀ axis, 2 ≤ HistorySizes.along ⟨3, 3⟩ axis := by
    rintro (_ | _) <;> decide
  obtain ⟨fresh, hfresh, hshows⟩ := AccumulatorSet.exists_ofDescriptors (α := Rat) hpos hfits
  obtain ⟨⟨before, after, last, hbefore, hcompute, hafter, hrates⟩, -, hfails⟩ :=
    rates_follow_definition hfresh [.sample {} 0, .setWindow 1, .sample {} 10000, .setWindow 4,
      .sample {} 10500, .setWindow 3] { allTransactionCount := 6 } 13000
  refine ⟨fresh, hfresh, ⟨before, after, _, last, hbefore, hcompute, hafter, ?_, ?_, ?_⟩, ?_⟩
  · rw [hrates .blocksPerSecond (by decide)]
    exact congrArg _ (by decide +kernel)
  · rw [hrates .allTransactionsPerSecond (by decide)]
    exact congrArg _ (by decide +kernel)
  · let log := ((Log.opening 2).noteAll 3 [.sample {} 0, .setWindow 1, .sample {} 10000, .setWindow 4,
      .sample {} 10500, .setWindow 3]).enter { allTransactionCount := 6 } 13000
    have hmean : (log.ledger .allTransactionsPerSecond).mean = 2 / 3 := by decide +kernel
    have hlargest : ((log.ledger .allTransactionsPerSecond).means.take 3).foldr max 0 = 2 / 3 := by
      decide +kernel
    have hshown : .readout ⟨"all_transactions_per_second", 2 / 3, 2 / 3, Label.ratio (2 / 3 : Rat) (2 / 3)⟩ ∈
        log.figures 3 0 .allTransactionsPerSecond := by
      rw [Log.figures, hmean, hlargest]
      exact List.mem_cons_of_mem _ (List.mem_singleton_self _)
    exact ⟨_, List.mem_flatMap.2 ⟨.allTransactionsPerSecond, by decide, hshown⟩⟩
  · cases harrivals : fresh.lookup .queue Metric.blockArrival.name with
    | ok arrivals =>
      cases (AccumulatorSet.lookup_eq_ok_iff.1 harrivals).symm.trans (hshows .blockArrival rfl)
    | error error =>
      have hrun : (computation .queue {} 0).run fresh = (.error error, fresh) :=
        run_reach_bind_of_error harrivals _
      have hcompute : (throughput .queue).compute {} 0 fresh = (.failed error, fresh) := by
        simp only [throughput, ofComputation, hrun]
      refine ⟨error, hcompute, ?_⟩
      rcases hfails Rat .queue {} 0 fresh fresh error hcompute with ⟨hmissing, -⟩ | ⟨-, hall⟩
      · exact hmissing
      · obtain ⟨arrivals, hfound, -⟩ := hall _ List.mem_cons_self
        cases hfound.symm.trans harrivals

end NodeTelemetry.Group.Throughput
