import NodeTelemetry.Engine
import NodeTelemetry.Json.Value
import NodeTelemetry.Text
import NodeTelemetry.Text.Escaped

/-!
The web interface of an engine: the health figures, a sign of life, the dashboard, and the window of the
moving averages, which a request can change. A dashboard is written as a JSON object.
-/

set_option autoImplicit false

namespace NodeTelemetry.Http

inductive Resource where
  | metrics
  | healthz
  | snapshot
  /-- The window, with the requested size as it stands in the path. -/
  | window (size : String)
  deriving Repr, DecidableEq

inductive Body (α : Type) where
  | text (text : String)
  | lines (lines : List String)
  | snapshot (snapshot : DashboardSnapshot α)

structure Response (α : Type) where
  status : Nat
  body : Body α

variable {α : Type} [Scalar α]

def Response.empty (status : Nat) : Response α := ⟨status, .text ""⟩

/-- What a request names without the query or fragment behind it. -/
def withoutQuery (target : String) : List Char :=
  target.toList.takeWhile fun c => c != '?' && c != '#'

/-- The path behind the scheme and the host of an absolute target. -/
def pathOfAbsolute : List Char → List Char
  | ':' :: '/' :: '/' :: rest => rest.dropWhile (· != '/')
  | _ :: rest => pathOfAbsolute rest
  | [] => []

/-- The path of what a request names, which begins with a slash or names a scheme and a host first. -/
def pathOf (target : String) : List Char :=
  match withoutQuery target with
  | '/' :: rest => '/' :: rest
  | other => pathOfAbsolute other

def resource? (target : String) : Option Resource :=
  match pathOf target with
  | '/' :: 'w' :: 'i' :: 'n' :: 'd' :: 'o' :: 'w' :: '/' :: size =>
    if size.isEmpty || size.contains '/' then none else some (.window (String.ofList size))
  | other =>
    match String.ofList other with
    | "/metrics" => some .metrics
    | "/healthz" => some .healthz
    | "/snapshot" => some .snapshot
    | _ => none

def size? (text : String) : Option Nat :=
  Text.numeral? 10 Word.largest (Text.withoutPlus text.toList)

inductive PathError where
  | undecodable
  | notSize (text : String)
  deriving Repr, DecidableEq

def PathError.message : PathError → String
  | .undecodable => "Invalid URL: Invalid UTF-8 in `size`"
  | .notSize text => "Invalid URL: Cannot parse `" ++ Text.quoted text ++ "` to a `u64`"

def readSize (segment : String) : Except PathError Nat :=
  match Text.percentDecode? segment with
  | none => .error .undecodable
  | some text =>
    match size? text with
    | some n => .ok n
    | none => .error (.notSize text)

def changeWindow (engine : Engine α) (segment : String) : Engine α × Response α :=
  match readSize segment with
  | .error error => (engine, ⟨400, .text error.message⟩)
  | .ok size =>
    match engine.setWindow size with
    | .error error => (engine, ⟨400, .text error.message⟩)
    | .ok changed =>
      (changed, ⟨200, .text ("\x7b\"window_size\":" ++ toString size ++ "\x7d")⟩)

def content (engine : Engine α) : Resource → Option (Body α)
  | .metrics => some (.lines engine.health.exposition)
  | .healthz => some (.text "ok")
  | .snapshot => some (.snapshot engine.snapshot)
  | .window _ => none

/-- Answers a request. Reading takes the method `GET`, or `HEAD` for a response without content, and
changing the window takes `POST`. -/
def respond (engine : Engine α) (method target : String) : Engine α × Response α :=
  match resource? target with
  | none => (engine, .empty 404)
  | some (.window segment) =>
    if method = "POST" then changeWindow engine segment else (engine, .empty 405)
  | some resource =>
    match content engine resource with
    | none => (engine, .empty 405)
    | some body =>
      if method = "GET" then (engine, ⟨200, body⟩)
      else if method = "HEAD" then (engine, .empty 200)
      else (engine, .empty 405)

end NodeTelemetry.Http

namespace NodeTelemetry

/-! ### The content of responses as text -/

open Json (Value)

def floatValue (x : Float) : Value := .number (.float (.ofFloat x))

def countValue (n : Nat) : Value := .number (.integer n)

def Point.json (point : Point Float) : Value :=
  .object [("x", floatValue point.x), ("y", floatValue point.y)]

def AccumulatorSnapshot.json (snapshot : AccumulatorSnapshot Float) : Value :=
  .object [("average", floatValue snapshot.average), ("max", floatValue snapshot.max),
    ("min", floatValue snapshot.min), ("sum", floatValue snapshot.sum),
    ("raw_count", countValue snapshot.size), ("window_size", countValue snapshot.window)]

def Readout.json (readout : Readout Float) : Value :=
  .object [("name", .string readout.name), ("value", floatValue readout.value),
    ("max", floatValue readout.max), ("label", .string readout.label)]

def tableValue {β : Type} (json : β → Value) (table : NameMap β) : Value :=
  .object (table.toList.map fun entry => (entry.1, json entry.2))

def DashboardSnapshot.json (snapshot : DashboardSnapshot Float) : Value :=
  .object [("last_height", match snapshot.lastHeight with
      | none => .null
      | some height => countValue height.toNat),
    ("window_size", countValue snapshot.window), ("commits", countValue snapshot.commits),
    ("series", tableValue (fun points => .array (points.map Point.json)) snapshot.series),
    ("accumulators", tableValue AccumulatorSnapshot.json snapshot.accumulators),
    ("readouts", tableValue Readout.json snapshot.readouts)]

def Http.Body.toText : Http.Body Float → String
  | .text content => content
  | .lines shown => String.join (shown.map (· ++ "\n"))
  | .snapshot shown => shown.json.text

end NodeTelemetry
