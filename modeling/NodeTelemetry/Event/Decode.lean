import NodeTelemetry.Event
import NodeTelemetry.Json.Value
import NodeTelemetry.Binary64

/-!
Events from JSON values: the fields of an event by name in any order, or all of them by position. Of
several defects the first in the order of the text counts, and a field that is missing comes after all
that are there.
-/

set_option autoImplicit false

namespace NodeTelemetry

namespace Unexpected

def ofValue : Json.Value → Unexpected
  | .null => .null
  | .boolean b => .boolean b
  | .number (.integer n) => .integer n
  | .number (.float x) => .float x
  | .string text => .string text
  | .array _ => .sequence
  | .object _ => .map

end Unexpected

namespace NodeEvent

open Json (Value)

abbrev Decoded (β : Type) := Except EventDefect β

def decodeWord (value : Value) : Decoded UInt64 :=
  match value with
  | .number (.integer n) =>
    if 0 ≤ n ∧ n.toNat ≤ Word.largest then .ok n.toNat.toUInt64 else .error (.invalidValue n .unsigned)
  | value => .error (.invalidType (.ofValue value) .unsigned)

def decodeTime (value : Value) : Decoded (Option Int64) :=
  match value with
  | .null => .ok none
  | .number (.integer n) =>
    if Word.smallestSigned ≤ n ∧ n ≤ Word.largestSigned then .ok (some (Int64.ofInt n))
    else .error (.invalidValue n .signed)
  | value => .error (.invalidType (.ofValue value) .signed)

abbrev Members := List (String × Value)

/-- Takes the fields of a report from members, and notes which were there. Unknown names are passed
over, known ones may come once. -/
def decodeFields {σ : Type} (fields : List (Field σ)) (start : σ) (members : Members) :
    Decoded (σ × List String) :=
  members.foldlM
    (fun (report, seen) (name, value) =>
      match fields.find? (·.name = name) with
      | none => .ok (report, seen)
      | some field =>
        if seen.contains name then .error (.duplicateField name)
        else do return (field.set report (← decodeWord value), name :: seen))
    (start, [])

/-- Takes the fields of a report from members, none of which may be missing. -/
def decodeAllFields {σ : Type} (fields : List (Field σ)) (start : σ) (members : Members) :
    Decoded σ := do
  let (report, seen) ← decodeFields fields start members
  match fields.find? fun field => !seen.contains field.name with
  | some field => .error (.missingField field.name)
  | none => .ok report

def arrivalName : String := "received_at_ms"

def decodeArrival (members : Members) : Decoded (Option Int64) := do
  let (time, _) ← members.foldlM
    (fun (time, seen) (name, value) =>
      if name = arrivalName then
        if seen then .error (.duplicateField name) else do return (← decodeTime value, true)
      else .ok (time, seen))
    (none, false)
  return time

def heightField : List (Field UInt64) := [⟨"height", id, fun _ height => height⟩]

def ofMembers (kind : EventKind) (members : Members) : Decoded NodeEvent :=
  match kind with
  | .performance => do
    let receivedAt ← decodeArrival members
    let (sample, _) ← decodeFields BlockSample.fields {} members
    return .performance sample receivedAt
  | .missingSample => .ok .missingSample
  | .queueStatus => do
    let (status, _) ← decodeFields QueueStatus.fields {} members
    return .queueStatus status
  | .volume => return .volume (← decodeAllFields VolumeCounters.fields {} members)
  | .blockPopped => return .blockPopped (← decodeAllFields heightField 0 members)

/-- Takes the fields of a report from items by position, as many as there are of both. -/
def decodePositions {σ : Type} (start : σ) : List (Field σ) → List Value → Decoded σ
  | field :: fields, value :: values => do
    decodePositions (field.set start (← decodeWord value)) fields values
  | _, _ => .ok start

def decodeAllPositions {σ : Type} (start : σ) (fields : List (Field σ)) (expected : Expectation)
    (items : List Value) : Decoded σ := do
  let report ← decodePositions start fields items
  if items.length < fields.length then .error (.invalidLength items.length expected)
  else .ok report

def refuseMore (fields : Nat) (items : List Value) : Decoded Unit :=
  if fields < items.length then .error (.invalidLength items.length (.items fields)) else .ok ()

def ofItems (kind : EventKind) (items : List Value) : Decoded NodeEvent :=
  match kind with
  | .performance => .error (.invalidType .sequence .namedFields)
  | .missingSample => do
    refuseMore 0 items
    return .missingSample
  | .queueStatus => do
    let status ← decodePositions {} QueueStatus.fields items
    refuseMore QueueStatus.fields.length items
    return .queueStatus status
  | .volume => do
    let counters ← decodeAllPositions {} VolumeCounters.fields .twoCounters items
    refuseMore VolumeCounters.fields.length items
    return .volume counters
  | .blockPopped => do
    let height ← decodeAllPositions 0 heightField .oneHeight items
    refuseMore heightField.length items
    return .blockPopped height

end NodeEvent

end NodeTelemetry
