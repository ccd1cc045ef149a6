import NodeTelemetry.Config
import NodeTelemetry.Duration
import NodeTelemetry.Yaml.Document
import NodeTelemetry.Binary64

/-!
Settings from YAML files. Settings that a file leaves out have their defaults, and what it says beyond
them does not count; but a setting given twice, or as a value of the wrong kind, spoils the file.
-/

set_option autoImplicit false

namespace NodeTelemetry

inductive LoadError where
  | unreadable (path : String)
  | malformed (path : String)
  | refused (error : ConfigError)
  deriving Repr, DecidableEq

def LoadError.message : LoadError → String
  | .unreadable path => "reading config file " ++ path
  | .malformed path => "parsing config file " ++ path
  | .refused error => error.message

namespace Setting

open Yaml (Node)

def nullNames : List String := ["null", "Null", "NULL", "~", ""]

def path? : Node → Option (Option String)
  | .scalar text plain => some (if plain && nullNames.contains text then none else some text)
  | _ => none

def numberBases : List (Char × Nat) := [('x', 16), ('o', 8), ('b', 2)]

def markedNumber? : List Char → Option Nat
  | '0' :: mark :: digits =>
    (numberBases.lookup mark).bind fun base => Text.numeral? base Word.largest digits
  | _ => none

def decimalNumber? (digits : List Char) : Option Nat :=
  if 1 < digits.length && digits.head? == some '0' then none
  else Text.numeral? 10 Word.largest digits

def count? : Node → Option Nat
  | .scalar text true =>
    let digits := Text.withoutPlus text.toList
    markedNumber? digits <|> decimalNumber? digits
  | _ => none

def duration? (node : Node) : Option Duration := node.text?.bind Duration.ofText?

/-- The named settings of a section. A section may be left empty. -/
def section? (names : List String) : Node → Option (List (String × Node))
  | .mapping entries => do
    let settings ← entries.mapM fun entry => do return (← entry.1.text?, entry.2)
    let named := settings.filter fun setting => names.contains setting.1
    if (named.map Prod.fst).Nodup then return named else none
  | node => if node.isEmpty then some [] else none

/-- The setting with a name, read from its value, or its default. -/
def read? {α : Type} (settings : List (String × Node)) (name : String) (value? : Node → Option α)
    (default : α) : Option α :=
  match settings.lookup name with
  | some node => value? node
  | none => some default

def engine? (node : Node) : Option EngineConfig := do
  let settings ← section? ["chart_history_size", "speed_history_size", "moving_average_window",
    "rate_interval", "workers"] node
  let default : EngineConfig := {}
  return {
    chartHistory := ← read? settings "chart_history_size" count? default.chartHistory
    speedHistory := ← read? settings "speed_history_size" count? default.speedHistory
    window := ← read? settings "moving_average_window" count? default.window
    rateInterval := ← read? settings "rate_interval" duration? default.rateInterval
    workers := ← read? settings "workers" count? default.workers }

def server? (node : Node) : Option ServerConfig := do
  let settings ← section? ["addr"] node
  let default : ServerConfig := {}
  return { address := ← read? settings "addr" Node.text? default.address }

def replay? (node : Node) : Option ReplayConfig := do
  let settings ← section? ["path", "pace"] node
  let default : ReplayConfig := {}
  return {
    path := ← read? settings "path" path? default.path
    pace := ← read? settings "pace" duration? default.pace }

def config? (node : Node) : Option Config := do
  let settings ← section? ["log_level", "engine", "health", "replay"] node
  let default : Config := {}
  return {
    logLevel := ← read? settings "log_level" Node.text? default.logLevel
    engine := ← read? settings "engine" engine? default.engine
    server := ← read? settings "health" server? default.server
    replay := ← read? settings "replay" replay? default.replay }

end Setting

namespace Config

/-- The settings that a text describes, without asking whether the program can run with them. -/
def ofText? (text : String) : Option Config := (Yaml.Node.ofText? text).bind Setting.config?

/-- The settings of a file: its bytes, or none if there is no such file. -/
def load (path : String) (file : Option (List UInt8)) : Except LoadError Config := do
  let some text := file.bind fun bytes => String.fromUTF8? ⟨bytes.toArray⟩
    | throw (.unreadable path)
  let some config := ofText? text
    | throw (.malformed path)
  match config.validate with
  | .ok () => return config
  | .error error => throw (.refused error)

end Config

end NodeTelemetry
