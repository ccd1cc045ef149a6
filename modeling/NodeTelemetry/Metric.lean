/-!
What is measured. A `Descriptor` tells how a metric is grouped, charted, accumulated and labelled; the
`Metric`s are the ones that the library computes, and `catalogue` lists their descriptors in display
order.
-/

set_option autoImplicit false

namespace NodeTelemetry

inductive GroupKind where
  | timing
  | throughput
  | transactions
  | network
  | queue
  deriving Repr, DecidableEq

def GroupKind.name : GroupKind → String
  | .timing => "timing"
  | .throughput => "throughput"
  | .transactions => "transactions"
  | .network => "network"
  | .queue => "queue"

def GroupKind.all : List GroupKind := [.timing, .throughput, .transactions, .network, .queue]

/-- What a chart runs along: block heights, or times in milliseconds. -/
inductive Axis where
  | height
  | timestamp
  deriving Repr, DecidableEq

/-- How many points histories keep: those along heights, and those along time. -/
structure HistorySizes where
  chart : Nat
  speed : Nat
  deriving Repr, DecidableEq

def HistorySizes.along (sizes : HistorySizes) : Axis → Nat
  | .height => sizes.chart
  | .timestamp => sizes.speed

inductive Formatter where
  | millis
  /-- Whole milliseconds, their maximum, and the share of a total. -/
  | millisShare
  | ratio
  | byteRate
  | bytes
  | fullness
  | cacheFullness
  | fraction
  | count
  deriving Repr, DecidableEq

structure Descriptor where
  name : String
  group : GroupKind
  axis : Axis
  /-- The form of the readout; a metric without one has a bare readout. -/
  formatter : Option Formatter
  /-- Whether values of the metric are accumulated into moving averages. -/
  accumulated : Bool
  charted : Bool
  deriving Repr, DecidableEq

inductive Metric where
  | pushTime
  | validationTime
  | txLoopTime
  | housekeepingTime
  | txApplyTime
  | atTime
  | subscriptionTime
  | blockApplyTime
  | commitTime
  | miscTime
  | payloadSize
  | payloadFullness
  | blocksPerSecond
  | allTransactionsPerSecond
  | systemTransactionsPerSecond
  | atCountPerBlock
  | blockArrival
  | windowTransactions
  | windowSystemTransactions
  | allTransactionsPerBlock
  | systemTransactionsPerBlock
  | uploadSpeed
  | downloadSpeed
  | uploadVolume
  | downloadVolume
  | queueVerified
  | queueUnverified
  | cacheFullness
  deriving Repr, DecidableEq

namespace Metric

def name : Metric → String
  | pushTime => "push_time"
  | validationTime => "validation_time"
  | txLoopTime => "tx_loop_time"
  | housekeepingTime => "housekeeping_time"
  | txApplyTime => "tx_apply_time"
  | atTime => "at_time"
  | subscriptionTime => "subscription_time"
  | blockApplyTime => "block_apply_time"
  | commitTime => "commit_time"
  | miscTime => "misc_time"
  | payloadSize => "payload_size"
  | payloadFullness => "payload_fullness"
  | blocksPerSecond => "blocks_per_second"
  | allTransactionsPerSecond => "all_transactions_per_second"
  | systemTransactionsPerSecond => "system_transactions_per_second"
  | atCountPerBlock => "at_count_per_block"
  | blockArrival => "block_arrival"
  | windowTransactions => "window_transactions"
  | windowSystemTransactions => "window_system_transactions"
  | allTransactionsPerBlock => "all_transactions_per_block"
  | systemTransactionsPerBlock => "system_transactions_per_block"
  | uploadSpeed => "upload_speed"
  | downloadSpeed => "download_speed"
  | uploadVolume => "upload_volume"
  | downloadVolume => "download_volume"
  | queueVerified => "queue_verified"
  | queueUnverified => "queue_unverified"
  | cacheFullness => "cache_fullness"

/-- A part of the time that pushing a block takes: accumulated and charted along heights. -/
private def timing (metric : Metric) (formatter : Formatter) : Descriptor :=
  ⟨metric.name, .timing, .height, some formatter, true, true⟩

/-- A number per block or per second: accumulated and charted along heights. -/
private def perBlock (metric : Metric) (group : GroupKind) : Descriptor :=
  ⟨metric.name, group, .height, some .ratio, true, true⟩

/-- A history kept for another metric's sake, without chart or label. -/
private def hidden (metric : Metric) (group : GroupKind) : Descriptor :=
  ⟨metric.name, group, .height, none, true, false⟩

private def network (metric : Metric) (formatter : Formatter) (accumulated : Bool) : Descriptor :=
  ⟨metric.name, .network, .timestamp, some formatter, accumulated, true⟩

private def queue (metric : Metric) (formatter : Formatter) : Descriptor :=
  ⟨metric.name, .queue, .timestamp, some formatter, false, false⟩

def descriptor (metric : Metric) : Descriptor :=
  match metric with
  | pushTime => timing metric .millis
  | validationTime | txLoopTime | housekeepingTime | txApplyTime | atTime | subscriptionTime
  | blockApplyTime | commitTime | miscTime => timing metric .millisShare
  | payloadSize => hidden metric .timing
  | payloadFullness => ⟨metric.name, .timing, .height, some .fullness, false, true⟩
  | blocksPerSecond | allTransactionsPerSecond | systemTransactionsPerSecond | atCountPerBlock =>
    perBlock metric .throughput
  | blockArrival | windowTransactions | windowSystemTransactions => hidden metric .throughput
  | allTransactionsPerBlock | systemTransactionsPerBlock => perBlock metric .transactions
  | uploadSpeed | downloadSpeed => network metric .byteRate true
  | uploadVolume | downloadVolume => network metric .bytes false
  | queueVerified => queue metric .fraction
  | queueUnverified => queue metric .count
  | cacheFullness => queue metric .cacheFullness

def all : List Metric :=
  [pushTime, validationTime, txLoopTime, housekeepingTime, txApplyTime, atTime, subscriptionTime,
    blockApplyTime, commitTime, miscTime, payloadSize, payloadFullness, blocksPerSecond,
    allTransactionsPerSecond, systemTransactionsPerSecond, atCountPerBlock, blockArrival,
    windowTransactions, windowSystemTransactions, allTransactionsPerBlock,
    systemTransactionsPerBlock, uploadSpeed, downloadSpeed, uploadVolume, downloadVolume,
    queueVerified, queueUnverified, cacheFullness]

theorem mem_all (metric : Metric) : metric ∈ all := by
  cases metric <;> decide

end Metric

def catalogue : List Descriptor := Metric.all.map Metric.descriptor

namespace Descriptor

def find? (name : String) : Option Descriptor := catalogue.find? (·.name = name)

def ofGroup (group : GroupKind) : List Descriptor := catalogue.filter (·.group = group)

end Descriptor

end NodeTelemetry
