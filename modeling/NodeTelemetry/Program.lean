import NodeTelemetry.CommandLine
import NodeTelemetry.Config.Load
import NodeTelemetry.Http
import NodeTelemetry.Config
import NodeTelemetry.LogFilter
import NodeTelemetry.Replay

/-!
A run of the program: what its arguments and the files make of it, up to where it serves requests. The
first thing that stands in the way ends it: the settings, the log level, the engine, the address. A
recording that cannot be replayed does not.
-/

set_option autoImplicit false

namespace NodeTelemetry.Program

inductive Failure where
  | config (path : String) (error : LoadError)
  | logLevel (level : String)
  | engine (error : SizeError)
  | start (error : StartError)
  | address (error : ListenAddress.ListenError)
  deriving Repr, DecidableEq

namespace Failure

def message : Failure → String
  | .config path _ => "loading config from " ++ path
  | .logLevel level => "invalid log level: " ++ level
  | .engine _ => "building aggregation engine"
  | .start error => error.message
  | .address error => error.message

def cause? : Failure → Option String
  | .config _ error => some error.message
  | .engine error => some error.message
  | .logLevel _ | .start _ | .address _ => none

end Failure

structure Service (α : Type) where
  engine : Engine α
  endpoint : String × Nat
  replay : Option (Except ReplayError ReplayCounts)

inductive Outcome (α : Type) where
  | refused
  | help
  | version
  | failed (failure : Failure)
  | serving (service : Service α)

def Outcome.status {α : Type} : Outcome α → Nat
  | .refused => 2
  | .failed _ => 1
  | .help | .version | .serving _ => 0

def versionLine (platform : String) : String :=
  "chainmeter 0.1.0 (commit: unknown, " ++ platform ++ ")"

abbrev Files := String → Option (List UInt8)

/-- The settings of an invocation: those of the file, or the defaults, with what the arguments say
instead. -/
def settings (files : Files) (options : CommandLine.Options) (recording : Option String) :
    Except Failure Config := do
  let config ← match options.config with
    | none => pure {}
    | some path => (Config.load path (files path)).mapError (.config path)
  return { config with
    logLevel := options.logLevel.getD config.logLevel
    replay := { config.replay with path := recording <|> config.replay.path } }

def settingsPath? (arguments : List String) : Option String :=
  match CommandLine.read arguments with
  | .accepted ⟨options, .serve⟩ | .accepted ⟨options, .replay _⟩ => options.config
  | _ => none

def recordingPath? (files : Files) (arguments : List String) : Option String :=
  match CommandLine.read arguments with
  | .accepted ⟨_, .replay path⟩ => some path
  | .accepted ⟨options, .serve⟩ =>
    match settings files options none with
    | .ok config => config.replay.path
    | .error _ => none
  | _ => none

variable {α : Type} [Scalar α]

def launch (files : Files) (now : Int64) (config : Config) : Except Failure (Service α) := do
  if !LogFilter.isFilter config.logLevel then throw (.logLevel config.logLevel)
  let built ← (Engine.build config.engine).mapError .engine
  let engine ← built.start.mapError .start
  let endpoint ← (ListenAddress.resolve config.server.address).mapError .address
  match config.replay.path with
  | none => return ⟨engine, endpoint, none⟩
  | some path =>
    let (engine, outcome) := engine.replay now false (files path)
    return ⟨engine, endpoint, some outcome⟩

def serve (files : Files) (now : Int64) (options : CommandLine.Options)
    (recording : Option String) : Outcome α :=
  match settings files options recording >>= launch files now with
  | .ok service => .serving service
  | .error failure => .failed failure

def usage : List String :=
  ["Metrics aggregation engine for a blockchain node dashboard.", "",
    "Usage: chainmeter [-c|--config PATH] [--log-level LEVEL] [replay FILE | version | help]"]

def run (files : Files) (now : Int64) (arguments : List String) : Outcome α :=
  match CommandLine.read arguments with
  | .refused => .refused
  | .help => .help
  | .accepted ⟨_, .version⟩ => .version
  | .accepted ⟨options, .serve⟩ => serve files now options none
  | .accepted ⟨options, .replay path⟩ => serve files now options (some path)

end NodeTelemetry.Program
