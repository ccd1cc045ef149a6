import NodeTelemetry.Proofs.Event.Fields

/-!
Events from members. The members give an event if and only if they give each of its fields once, under
its name and in its range. Only fields that are zero, of some kinds, and a time of arrival that is not
known may be left out.
-/

set_option autoImplicit false

namespace NodeTelemetry

namespace EventKind

def wordNames : EventKind → List String
  | performance =>
    ["height", "total_time_ms", "validation_time_ms", "tx_loop_time_ms", "housekeeping_time_ms",
      "tx_apply_time_ms", "at_time_ms", "subscription_time_ms", "block_apply_time_ms",
      "commit_time_ms", "misc_time_ms", "payload_size", "max_payload_size", "at_count",
      "all_transaction_count", "system_transaction_count"]
  | missingSample => []
  | queueStatus =>
    ["unverified_size", "verified_size", "total_size", "cache_fullness_bytes",
      "cache_capacity_bytes"]
  | volume => ["uploaded_bytes", "downloaded_bytes"]
  | blockPopped => ["height"]

def sparse : EventKind → Bool
  | performance | queueStatus => true
  | missingSample | volume | blockPopped => false

def knownNames (kind : EventKind) : List String :=
  "event" :: kind.wordNames ++ if kind = performance then ["received_at_ms"] else []

end EventKind

namespace NodeEvent

open Json (Value valuesOf)

def kind : NodeEvent → EventKind
  | performance _ _ => .performance
  | missingSample => .missingSample
  | queueStatus _ => .queueStatus
  | volume _ => .volume
  | blockPopped _ => .blockPopped

/-- The unsigned fields of an event, in the order of their names. -/
def words : NodeEvent → List UInt64
  | performance sample _ =>
    [sample.height, sample.totalTime, sample.validationTime, sample.txLoopTime,
      sample.housekeepingTime, sample.txApplyTime, sample.atTime, sample.subscriptionTime,
      sample.blockApplyTime, sample.commitTime, sample.miscTime, sample.payloadSize,
      sample.maxPayloadSize, sample.atCount, sample.allTransactionCount,
      sample.systemTransactionCount]
  | missingSample => []
  | queueStatus status =>
    [status.unverified, status.verified, status.total, status.cacheUsed, status.cacheCapacity]
  | volume counters => [counters.uploaded, counters.downloaded]
  | blockPopped height => [height]

def entries (event : NodeEvent) : List (String × UInt64) := event.kind.wordNames.zip event.words

def arrival? : NodeEvent → Option (Option Int64)
  | performance _ receivedAt => some receivedAt
  | missingSample | queueStatus _ | volume _ | blockPopped _ => none

/-- The members give the fields of an event, with the integers and the null that they are made of. -/
structure Gives {β : Type} (integer : Int → β) (null : β) (members : List (String × β))
    (event : NodeEvent) : Prop where
  words : ∀ entry ∈ event.entries, valuesOf entry.1 members = [integer entry.2.toNat] ∨
    (event.kind.sparse = true ∧ entry.2 = 0) ∧ valuesOf entry.1 members = []
  arrival : ∀ time ∈ event.arrival?,
    valuesOf "received_at_ms" members = [time.elim null fun time => integer time.toInt] ∨
      time = none ∧ valuesOf "received_at_ms" members = []

abbrev Given (members : Members) (event : NodeEvent) : Prop :=
  event.Gives (fun n => .number (.integer n)) Value.null members

section ofMembers

variable {members : Members} {event : NodeEvent}

private theorem ofMembers_performance :
    ofMembers .performance members = .ok event ↔ ∃ sample time, event = .performance sample time ∧
      decodeArrival members = .ok time ∧
      ∃ seen, decodeFields BlockSample.fields {} members = .ok (sample, seen) := by
  constructor
  · intro h
    obtain ⟨time, htime, h⟩ := exists_of_bind h
    obtain ⟨⟨sample, seen⟩, hsample, h⟩ := exists_of_bind h
    cases h
    exact ⟨sample, time, rfl, htime, seen, hsample⟩
  · rintro ⟨sample, time, rfl, htime, seen, hsample⟩
    rw [ofMembers, htime, hsample]
    rfl

private theorem ofMembers_queueStatus :
    ofMembers .queueStatus members = .ok event ↔ ∃ status, event = .queueStatus status ∧
      ∃ seen, decodeFields QueueStatus.fields {} members = .ok (status, seen) := by
  constructor
  · intro h
    obtain ⟨⟨status, seen⟩, hstatus, h⟩ := exists_of_bind h
    cases h
    exact ⟨status, rfl, seen, hstatus⟩
  · rintro ⟨status, rfl, seen, hstatus⟩
    rw [ofMembers, hstatus]
    rfl

private theorem ofMembers_volume :
    ofMembers .volume members = .ok event ↔ ∃ counters, event = .volume counters ∧
      decodeAllFields VolumeCounters.fields {} members = .ok counters := by
  constructor
  · intro h
    obtain ⟨counters, hcounters, h⟩ := exists_of_bind h
    cases h
    exact ⟨counters, rfl, hcounters⟩
  · rintro ⟨counters, rfl, hcounters⟩
    rw [ofMembers, hcounters]
    rfl

private theorem ofMembers_blockPopped :
    ofMembers .blockPopped members = .ok event ↔ ∃ height, event = .blockPopped height ∧
      decodeAllFields heightField 0 members = .ok height := by
  constructor
  · intro h
    obtain ⟨height, hheight, h⟩ := exists_of_bind h
    cases h
    exact ⟨height, rfl, hheight⟩
  · rintro ⟨height, rfl, hheight⟩
    rw [ofMembers, hheight]
    rfl

private theorem given_iff {σ : Type} {fields : List (Field σ)} {report : σ}
    (hentries : event.entries = fields.map fun field => (field.name, field.get report)) :
    Given members event ↔
      (∀ field ∈ fields, valuesOf field.name members = [wordValue (field.get report)] ∨
        (event.kind.sparse = true ∧ field.get report = 0) ∧ valuesOf field.name members = []) ∧
      ∀ time ∈ event.arrival?, valuesOf arrivalName members = [timeValue time] ∨
        time = none ∧ valuesOf arrivalName members = [] := by
  have htime : ∀ time : Option Int64,
      time.elim Value.null (fun time => .number (.integer time.toInt)) = timeValue time := by
    intro time
    cases time <;> rfl
  constructor
  · rintro ⟨hwords, harrival⟩
    rw [hentries, List.forall_mem_map] at hwords
    simp only [htime] at harrival
    exact ⟨hwords, harrival⟩
  · rintro ⟨hwords, harrival⟩
    refine ⟨?_, ?_⟩
    · rw [hentries, List.forall_mem_map]
      exact hwords
    · simp only [htime]
      exact harrival

private theorem given_iff_of_dense {σ : Type} {fields : List (Field σ)} {report : σ}
    (hentries : event.entries = fields.map fun field => (field.name, field.get report))
    (hdense : event.kind.sparse = false) (harrival : event.arrival? = none) :
    Given members event ↔
      ∀ field ∈ fields, valuesOf field.name members = [wordValue (field.get report)] := by
  rw [given_iff hentries, hdense, harrival]
  simp

private theorem given_iff_of_sparse {σ : Type} {fields : List (Field σ)} {start report : σ}
    (hlawful : Field.Lawful fields) (hstart : ∀ field ∈ fields, field.get start = 0)
    (hentries : event.entries = fields.map fun field => (field.name, field.get report))
    (hsparse : event.kind.sparse = true) :
    Given members event ↔
      (∃ seen, decodeFields fields start members = .ok (report, seen)) ∧
      ∀ time ∈ event.arrival?, decodeArrival members = .ok time := by
  simp only [given_iff hentries, decodeFields_ok_iff hlawful, decodeArrival_ok_iff, hsparse, true_and]
  refine and_congr_left fun _ => forall₂_congr fun field hfield => ?_
  rw [hstart field hfield]

private theorem given_performance_iff {sample : BlockSample} {time : Option Int64} :
    Given members (.performance sample time) ↔
      decodeArrival members = .ok time ∧
      ∃ seen, decodeFields BlockSample.fields {} members = .ok (sample, seen) := by
  have hstart : ∀ field ∈ BlockSample.fields, field.get {} = 0 := by
    simp [BlockSample.fields]
  rw [given_iff_of_sparse BlockSample.lawful_fields hstart rfl rfl, and_comm]
  exact and_congr_left fun _ => ⟨fun h => h time rfl, fun h other hother => Option.some.inj hother ▸ h⟩

private theorem given_queueStatus_iff {status : QueueStatus} :
    Given members (.queueStatus status) ↔
      ∃ seen, decodeFields QueueStatus.fields {} members = .ok (status, seen) := by
  have hstart : ∀ field ∈ QueueStatus.fields, field.get {} = 0 := by
    simp [QueueStatus.fields]
  rw [given_iff_of_sparse QueueStatus.lawful_fields hstart rfl rfl]
  exact and_iff_left fun _ hnone => absurd hnone (Option.not_mem_none _)

private theorem given_volume_iff {counters : VolumeCounters} :
    Given members (.volume counters) ↔
      decodeAllFields VolumeCounters.fields {} members = .ok counters := by
  have hentries : (NodeEvent.volume counters).entries =
      VolumeCounters.fields.map fun field => (field.name, field.get counters) := rfl
  rw [given_iff_of_dense hentries rfl rfl, decodeAllFields_ok_iff VolumeCounters.lawful_fields]

private theorem given_blockPopped_iff {height : UInt64} :
    Given members (.blockPopped height) ↔ decodeAllFields heightField 0 members = .ok height := by
  have hentries : (NodeEvent.blockPopped height).entries =
      heightField.map fun field => (field.name, field.get height) := rfl
  rw [given_iff_of_dense hentries rfl rfl, decodeAllFields_ok_iff lawful_heightField]

theorem ofMembers_ok_iff {kind : EventKind} :
    ofMembers kind members = .ok event ↔ event.kind = kind ∧ Given members event := by
  constructor
  · intro h
    cases kind with
    | performance =>
      obtain ⟨sample, time, rfl, hgiven⟩ := ofMembers_performance.1 h
      exact ⟨rfl, given_performance_iff.2 hgiven⟩
    | missingSample =>
      cases h
      exact ⟨rfl, ⟨fun _ hnone => (nomatch hnone), fun _ hnone => (nomatch hnone)⟩⟩
    | queueStatus =>
      obtain ⟨status, rfl, hgiven⟩ := ofMembers_queueStatus.1 h
      exact ⟨rfl, given_queueStatus_iff.2 hgiven⟩
    | volume =>
      obtain ⟨counters, rfl, hgiven⟩ := ofMembers_volume.1 h
      exact ⟨rfl, given_volume_iff.2 hgiven⟩
    | blockPopped =>
      obtain ⟨height, rfl, hgiven⟩ := ofMembers_blockPopped.1 h
      exact ⟨rfl, given_blockPopped_iff.2 hgiven⟩
  · rintro ⟨rfl, hgiven⟩
    cases event with
    | performance sample time =>
      exact ofMembers_performance.2 ⟨sample, time, rfl, given_performance_iff.1 hgiven⟩
    | missingSample => rfl
    | queueStatus status => exact ofMembers_queueStatus.2 ⟨status, rfl, given_queueStatus_iff.1 hgiven⟩
    | volume counters => exact ofMembers_volume.2 ⟨counters, rfl, given_volume_iff.1 hgiven⟩
    | blockPopped height =>
      exact ofMembers_blockPopped.2 ⟨height, rfl, given_blockPopped_iff.1 hgiven⟩

end ofMembers

end NodeEvent

end NodeTelemetry
