import NodeTelemetry.Decimal
import NodeTelemetry.Sample
import NodeTelemetry.Text.Escaped

/-!
Recorded events: what a node reported, one event to a line, and what can be wrong with such a line.
-/

set_option autoImplicit false

namespace NodeTelemetry

inductive NodeEvent where
  /-- A block sample, and when it arrived if that was recorded. -/
  | performance (sample : BlockSample) (receivedAt : Option Int64)
  | missingSample
  | queueStatus (status : QueueStatus)
  | volume (counters : VolumeCounters)
  | blockPopped (height : UInt64)
  deriving Repr, DecidableEq

inductive EventKind where
  | performance
  | missingSample
  | queueStatus
  | volume
  | blockPopped
  deriving Repr, DecidableEq

namespace EventKind

def tag : EventKind → String
  | performance => "performance"
  | missingSample => "missing_sample"
  | queueStatus => "queue_status"
  | volume => "volume"
  | blockPopped => "block_popped"

def all : List EventKind := [performance, missingSample, queueStatus, volume, blockPopped]

def ofTag? (name : String) : Option EventKind := all.find? (·.tag = name)

end EventKind

inductive Unexpected where
  | null
  | boolean (b : Bool)
  | integer (n : Int)
  | float (x : Binary64)
  | string (text : String)
  | sequence
  | map
  deriving Repr, DecidableEq

def Unexpected.text : Unexpected → String
  | null => "null"
  | boolean b => s!"boolean `{b}`"
  | integer n => s!"integer `{n}`"
  | float x => "floating point `" ++ Decimal.quotedStyle.text x ++ "`"
  | string text => "string " ++ Text.quoted text
  | sequence => "sequence"
  | map => "map"

inductive Expectation where
  | event
  | tag
  | unsigned
  | signed
  | namedFields
  | twoCounters
  | oneHeight
  | items (n : Nat)
  deriving Repr, DecidableEq

def Expectation.text : Expectation → String
  | event => "internally tagged enum NodeEvent"
  | tag => "variant identifier"
  | unsigned => "u64"
  | signed => "i64"
  | namedFields => "struct variant NodeEvent::Performance"
  | twoCounters => "struct variant NodeEvent::Volume with 2 elements"
  | oneHeight => "struct variant NodeEvent::BlockPopped with 1 element"
  | items 1 => "1 element in sequence"
  | items n => s!"{n} elements in sequence"

inductive EventDefect where
  | missingField (name : String)
  | duplicateField (name : String)
  | unknownKind (name : String)
  | invalidType (found : Unexpected) (expected : Expectation)
  | invalidValue (found : Int) (expected : Expectation)
  | invalidLength (found : Nat) (expected : Expectation)
  deriving Repr, DecidableEq

def EventDefect.message : EventDefect → String
  | missingField name => s!"missing field `{name}`"
  | duplicateField name => s!"duplicate field `{name}`"
  | unknownKind name =>
    s!"unknown variant `{name}`, expected one of "
      ++ ", ".intercalate (EventKind.all.map fun kind => s!"`{kind.tag}`")
  | invalidType found expected => s!"invalid type: {found.text}, expected {expected.text}"
  | invalidValue found expected => s!"invalid value: integer `{found}`, expected {expected.text}"
  | invalidLength found expected => s!"invalid length {found}, expected {expected.text}"

inductive EventError where
  | malformed
  | defect (reason : EventDefect)
  deriving Repr, DecidableEq

def EventError.message : EventError → String
  | malformed => "malformed JSON"
  | defect reason => reason.message

structure LineError where
  line : Nat
  error : EventError
  deriving Repr, DecidableEq

def LineError.message (error : LineError) : String := s!"line {error.line}: {error.error.message}"

end NodeTelemetry
