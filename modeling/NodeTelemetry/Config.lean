import NodeTelemetry.Duration
import NodeTelemetry.Text

/-!
The settings of the program and what is asked of them. `EngineConfig.validate` finds the first setting
that no engine can run with. The server listens on an IPv4 address and a port, or on a port alone, which
stands for all interfaces.
-/

set_option autoImplicit false

namespace NodeTelemetry

structure EngineConfig where
  /-- Points kept for each chart and accumulator along heights. -/
  chartHistory : Nat := 1000
  /-- Points kept for each chart and accumulator along time. -/
  speedHistory : Nat := 1000
  window : Nat := 100
  rateInterval : Duration := Duration.ofMilliseconds 100
  workers : Nat := 3
  deriving Repr, DecidableEq

structure ServerConfig where
  address : String := ":9090"
  deriving Repr, DecidableEq

structure ReplayConfig where
  path : Option String := none
  pace : Duration := Duration.zero
  deriving Repr, DecidableEq

structure Config where
  logLevel : String := "info"
  engine : EngineConfig := {}
  server : ServerConfig := {}
  replay : ReplayConfig := {}
  deriving Repr, DecidableEq

inductive ConfigError where
  | noChartHistory
  | noSpeedHistory
  /-- A window that exceeds the smaller history, or is empty. -/
  | window (largest requested : Nat)
  | noRateInterval
  | noWorkers
  | noAddress
  deriving Repr, DecidableEq

def ConfigError.message : ConfigError → String
  | .noChartHistory => "engine.chart_history_size must be positive"
  | .noSpeedHistory => "engine.speed_history_size must be positive"
  | .window largest requested =>
    s!"engine.moving_average_window must be between 1 and {largest}, got {requested}"
  | .noRateInterval => "engine.rate_interval must be positive"
  | .noWorkers => "engine.workers must be positive"
  | .noAddress => "health.addr is required"

def EngineConfig.largestWindow (config : EngineConfig) : Nat :=
  min config.chartHistory config.speedHistory

def EngineConfig.validate (config : EngineConfig) : Except ConfigError Unit :=
  if config.chartHistory = 0 then .error .noChartHistory
  else if config.speedHistory = 0 then .error .noSpeedHistory
  else if config.window = 0 ∨ config.largestWindow < config.window then
    .error (.window config.largestWindow config.window)
  else if config.rateInterval = Duration.zero then .error .noRateInterval
  else if config.workers = 0 then .error .noWorkers
  else .ok ()

def Config.validate (config : Config) : Except ConfigError Unit := do
  config.engine.validate
  if config.server.address = "" then throw .noAddress

end NodeTelemetry

namespace NodeTelemetry.ListenAddress

/-! ### The address of the server -/

/-- Writes the shorthand of a port alone as an address on all interfaces. -/
def expand (address : String) : String :=
  match address.toList with
  | ':' :: _ => "0.0.0.0" ++ address
  | _ => address

def default : String := ":9090"

/-- An IPv4 address as text: four numbers below 256 without superfluous zeros. -/
def isHost (host : List Char) : Bool :=
  let parts := Text.splitAt '.' host
  parts.length == 4 && parts.all fun part =>
    (Text.numeral? 10 255 part).isSome && part.length ≤ 3 && (part.length == 1 || part.head? != some '0')

/-- The host and the port of an expanded address that a server can be bound to. -/
def endpoint? (address : String) : Option (String × Nat) :=
  match Text.splitAt ':' address.toList with
  | [host, port] =>
    if isHost host then
      (Text.numeral? 10 65535 (Text.withoutPlus port)).map fun n => (String.ofList host, n)
    else none
  | _ => none

structure ListenError where
  address : String
  deriving Repr, DecidableEq

def ListenError.message (error : ListenError) : String := "listening on " ++ error.address

/-- The host and the port of an address as it is configured, which may be a shorthand. -/
def resolve (address : String) : Except ListenError (String × Nat) :=
  let expanded := expand (if address.isEmpty then default else address)
  match endpoint? expanded with
  | some endpoint => .ok endpoint
  | none => .error ⟨expanded⟩

end NodeTelemetry.ListenAddress
