import NodeTelemetry.Event.Decode
import NodeTelemetry.Text

/-!
Events from the lines of a recording. A line is blank, a comment, or one JSON text. A text is read from
the front, and the first thing wrong with it counts: an event's kind is judged where it stands, its
fields at the end of the object or array, and what follows only after that.
-/

set_option autoImplicit false

namespace NodeTelemetry.NodeEvent

open Json (Token Value Rest readValue readItems tokens)

def innerDepth : Nat := 126

def tagName : String := "event"

def unexpected? : Token → Option Unexpected
  | .null => some .null
  | .boolean b => some (.boolean b)
  | .number (.integer n) => some (.integer n)
  | .number (.float x) => some (.float x)
  | .string text => some (.string text)
  | .openBracket => some .sequence
  | .openBrace => some .map
  | .closeBrace | .closeBracket | .colon | .comma | .invalid => none

def misplaced (token : Token) (expected : Expectation) : EventError :=
  match unexpected? token with
  | some found => .defect (.invalidType found expected)
  | none => .malformed

def kindOf (token : Token) : Except EventError EventKind :=
  match token with
  | .string name =>
    match EventKind.ofTag? name with
    | some kind => .ok kind
    | none => .error (.defect (.unknownKind name))
  | token => .error (misplaced token .tag)

/-- Reads the members of an event up to the end of the object, with the kind as far as it is known. The
member that names the kind is not among those returned. -/
def readMembers (kind : Option EventKind) (text : List Token) :
    Except EventError (Option EventKind × Members × List Token) :=
  match text with
  | .string name :: rest =>
    if name = tagName then
      match kind, rest with
      | some _, _ => .error (.defect (.duplicateField tagName))
      | none, .colon :: token :: rest =>
        match kindOf token with
        | .error e => .error e
        | .ok named =>
          match rest with
          | .comma :: rest => readMembers (some named) rest
          | .closeBrace :: rest => .ok (some named, [], rest)
          | _ => .error .malformed
      | none, _ => .error .malformed
    else
      match rest with
      | .colon :: value =>
        match readValue innerDepth value with
        | some (first, ⟨.comma :: rest, h⟩) =>
          have : rest.length < value.length + 2 := by simp only [List.length_cons] at h; omega
          match readMembers kind rest with
          | .ok (kind, members, after) => .ok (kind, (name, first) :: members, after)
          | .error e => .error e
        | some (first, ⟨.closeBrace :: rest, _⟩) => .ok (kind, [(name, first)], rest)
        | _ => .error .malformed
      | _ => .error .malformed
  | _ => .error .malformed
termination_by text.length

def readObject (text : List Token) : Except EventError (NodeEvent × List Token) := do
  let (kind, members, after) ← match text with
    | .closeBrace :: rest => .ok (none, [], rest)
    | text => readMembers none text
  match kind with
  | none => throw (.defect (.missingField tagName))
  | some kind =>
    match ofMembers kind members with
    | .ok event => return (event, after)
    | .error defect => throw (.defect defect)

def readRest (text : List Token) : Except EventError (List Value × List Token) :=
  match text with
  | .closeBracket :: rest => .ok ([], rest)
  | .comma :: rest =>
    match readItems innerDepth rest with
    | some (items, after) => .ok (items, after.1)
    | none => .error .malformed
  | _ => .error .malformed

def readArray (text : List Token) : Except EventError (NodeEvent × List Token) :=
  match text with
  | .closeBracket :: _ => .error (.defect (.missingField tagName))
  | [] => .error .malformed
  | token :: rest => do
    let kind ← kindOf token
    let (items, after) ← readRest rest
    match ofItems kind items with
    | .ok event => return (event, after)
    | .error defect => throw (.defect defect)

def ofTokens (text : List Token) : Except EventError NodeEvent := do
  let (event, after) ← match text with
    | .openBrace :: rest => readObject rest
    | .openBracket :: rest => readArray rest
    | token :: _ => .error (misplaced token .event)
    | [] => .error .malformed
  if after.isEmpty then return event else throw .malformed

def ofLine (number : Nat) (line : String) : Except LineError (Option NodeEvent) :=
  match Text.trimmed line.toList with
  | [] | '#' :: _ => .ok none
  | text =>
    match ofTokens (tokens text) with
    | .ok event => .ok (some event)
    | .error error => .error ⟨number, error⟩

end NodeTelemetry.NodeEvent
