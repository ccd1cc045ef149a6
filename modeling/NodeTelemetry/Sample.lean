/-!
What a node reports: how a block was pushed, how its download queue stands, and how many bytes it has
moved. The fields of a report are listed in a table with the names under which they are recorded.
-/

set_option autoImplicit false

namespace NodeTelemetry

structure Field (σ : Type) where
  name : String
  get : σ → UInt64
  set : σ → UInt64 → σ

/-- How long a node took to push a block, and what the block held. All times are milliseconds. -/
structure BlockSample where
  height : UInt64 := 0
  totalTime : UInt64 := 0
  validationTime : UInt64 := 0
  txLoopTime : UInt64 := 0
  housekeepingTime : UInt64 := 0
  txApplyTime : UInt64 := 0
  atTime : UInt64 := 0
  subscriptionTime : UInt64 := 0
  blockApplyTime : UInt64 := 0
  commitTime : UInt64 := 0
  miscTime : UInt64 := 0
  payloadSize : UInt64 := 0
  maxPayloadSize : UInt64 := 0
  atCount : UInt64 := 0
  allTransactionCount : UInt64 := 0
  systemTransactionCount : UInt64 := 0
  deriving Repr, DecidableEq

def BlockSample.fields : List (Field BlockSample) :=
  [⟨"height", height, fun s n => { s with height := n }⟩,
    ⟨"total_time_ms", totalTime, fun s n => { s with totalTime := n }⟩,
    ⟨"validation_time_ms", validationTime, fun s n => { s with validationTime := n }⟩,
    ⟨"tx_loop_time_ms", txLoopTime, fun s n => { s with txLoopTime := n }⟩,
    ⟨"housekeeping_time_ms", housekeepingTime, fun s n => { s with housekeepingTime := n }⟩,
    ⟨"tx_apply_time_ms", txApplyTime, fun s n => { s with txApplyTime := n }⟩,
    ⟨"at_time_ms", atTime, fun s n => { s with atTime := n }⟩,
    ⟨"subscription_time_ms", subscriptionTime, fun s n => { s with subscriptionTime := n }⟩,
    ⟨"block_apply_time_ms", blockApplyTime, fun s n => { s with blockApplyTime := n }⟩,
    ⟨"commit_time_ms", commitTime, fun s n => { s with commitTime := n }⟩,
    ⟨"misc_time_ms", miscTime, fun s n => { s with miscTime := n }⟩,
    ⟨"payload_size", payloadSize, fun s n => { s with payloadSize := n }⟩,
    ⟨"max_payload_size", maxPayloadSize, fun s n => { s with maxPayloadSize := n }⟩,
    ⟨"at_count", atCount, fun s n => { s with atCount := n }⟩,
    ⟨"all_transaction_count", allTransactionCount, fun s n => { s with allTransactionCount := n }⟩,
    ⟨"system_transaction_count", systemTransactionCount,
      fun s n => { s with systemTransactionCount := n }⟩]

structure QueueStatus where
  unverified : UInt64 := 0
  verified : UInt64 := 0
  total : UInt64 := 0
  cacheUsed : UInt64 := 0
  cacheCapacity : UInt64 := 0
  deriving Repr, DecidableEq

def QueueStatus.fields : List (Field QueueStatus) :=
  [⟨"unverified_size", unverified, fun s n => { s with unverified := n }⟩,
    ⟨"verified_size", verified, fun s n => { s with verified := n }⟩,
    ⟨"total_size", total, fun s n => { s with total := n }⟩,
    ⟨"cache_fullness_bytes", cacheUsed, fun s n => { s with cacheUsed := n }⟩,
    ⟨"cache_capacity_bytes", cacheCapacity, fun s n => { s with cacheCapacity := n }⟩]

structure VolumeCounters where
  uploaded : UInt64 := 0
  downloaded : UInt64 := 0
  deriving Repr, DecidableEq

def VolumeCounters.fields : List (Field VolumeCounters) :=
  [⟨"uploaded_bytes", uploaded, fun s n => { s with uploaded := n }⟩,
    ⟨"downloaded_bytes", downloaded, fun s n => { s with downloaded := n }⟩]

structure VolumeSnapshot where
  counters : VolumeCounters
  observedAt : Int64
  deriving Repr, DecidableEq

end NodeTelemetry
