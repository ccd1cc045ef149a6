import NodeTelemetry.Engine
import NodeTelemetry.Event.Line

/-!
Replaying a recording into an engine, line by line. Lines that are no events are skipped; the replay
ends at the end of the recording, at a line that is no text, or when the engine accepts nothing more.
-/

set_option autoImplicit false

namespace NodeTelemetry

structure ReplayCounts where
  applied : Nat := 0
  skipped : Nat := 0
  deriving Repr, DecidableEq

inductive ReplayError where
  | unreadable
  | engineStopped (applied : Nat)
  deriving Repr, DecidableEq

def ReplayError.message : ReplayError → String
  | .unreadable => "recording cannot be read"
  | .engineStopped applied => s!"engine stopped after {applied} events"

/-- Splits bytes into lines. A line ends in a newline, or in a carriage return and a newline; the last
one may lack its end. -/
def splitLines : List UInt8 → List (List UInt8)
  | [] => []
  | 10 :: rest => [] :: splitLines rest
  | 13 :: 10 :: rest => [] :: splitLines rest
  | byte :: rest =>
    match splitLines rest with
    | [] => [[byte]]
    | line :: lines => (byte :: line) :: lines

/-- The lines of a recording; a line whose bytes are no text is none. -/
def recordingLines (bytes : List UInt8) : List (Option String) :=
  (splitLines bytes).map fun line => String.fromUTF8? ⟨line.toArray⟩

namespace Engine

variable {α : Type} [Scalar α]

/-- Hands an event to the engine; a sample without a recorded time arrives now. -/
def apply (engine : Engine α) (now : Int64) (event : NodeEvent) : Engine α × Bool :=
  match event with
  | .performance sample receivedAt => engine.submit (.sample (some (sample, receivedAt.getD now)))
  | .missingSample => engine.submit (.sample none)
  | .queueStatus status => engine.submit (.queueStatus status)
  | .volume counters => (engine.setVolume counters, true)
  | .blockPopped height => engine.submit (.blockPopped height)

/-- Replays lines, the first of which has the given number, and waits for them to be on display. -/
def replayLines (engine : Engine α) (now : Int64) (number : Nat) (counts : ReplayCounts) :
    List (Option String) → Engine α × Except ReplayError ReplayCounts
  | [] =>
    match engine.flush with
    | (engine, .refused) => (engine, .error (.engineStopped counts.applied))
    | (engine, _) => (engine, .ok counts)
  | none :: _ => (engine, .error .unreadable)
  | some line :: lines =>
    match NodeEvent.ofLine number line with
    | .ok none => replayLines engine now (number + 1) counts lines
    | .error _ =>
      replayLines engine now (number + 1) { counts with skipped := counts.skipped + 1 } lines
    | .ok (some event) =>
      match engine.apply now event with
      | (engine, false) => (engine, .error (.engineStopped counts.applied))
      | (engine, true) =>
        replayLines engine now (number + 1) { counts with applied := counts.applied + 1 } lines

/-- Replays a recording: its bytes, or none if there is no such file. A replay that was cancelled before
it begins applies nothing. -/
def replay (engine : Engine α) (now : Int64) (cancelled : Bool) (recording : Option (List UInt8)) :
    Engine α × Except ReplayError ReplayCounts :=
  match recording with
  | none => (engine, .error .unreadable)
  | some bytes =>
    if cancelled then (engine, .ok {}) else engine.replayLines now 1 {} (recordingLines bytes)

end Engine

end NodeTelemetry
