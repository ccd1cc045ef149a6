import NodeTelemetry.Metric

/-!
What can be wrong with a request to the engine or with a computation inside it, and the texts that
say so.
-/

set_option autoImplicit false

namespace NodeTelemetry

inductive SizeError where
  /-- A window that does not fit the capacity it was checked against. -/
  | window (requested : Nat) (room : Nat)
  | capacity
  deriving Repr, DecidableEq

def SizeError.message : SizeError → String
  | .window requested room =>
    s!"invalid window size {requested}: must be between 1 and {room}"
  | .capacity => "invalid accumulator capacity: must be positive"

inductive FailureCause where
  /-- The group does not own an accumulator that it needs. -/
  | noAccumulator (name : String)
  | panicked (text : Option String)
  | reason (text : String)
  deriving Repr, DecidableEq

def FailureCause.message : FailureCause → String
  | .noAccumulator name => "no accumulator named " ++ name
  | .panicked none => "panicked"
  | .panicked (some text) => "panicked: " ++ text
  | .reason text => text

inductive EngineError where
  | size (error : SizeError)
  | computation (group : GroupKind) (cause : FailureCause)
  deriving Repr, DecidableEq

namespace EngineError

def message : EngineError → String
  | .size error => error.message
  | .computation group cause => group.name ++ " computation failed: " ++ cause.message

def isConfiguration : EngineError → Bool
  | .size _ => true
  | .computation _ _ => false

end EngineError

end NodeTelemetry
