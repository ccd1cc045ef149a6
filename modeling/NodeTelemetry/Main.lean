import NodeTelemetry.Http
import NodeTelemetry.Program

/-!
The command line program. Once it serves, it takes requests from standard input, each a line with a
method and a path, until the input ends.
-/

set_option autoImplicit false

namespace NodeTelemetry

def readBytes? (path : String) : IO (Option (List UInt8)) := do
  try return some (← IO.FS.readBinFile path).toList
  catch _ => return none

def withFile (files : Program.Files) : Option String → IO Program.Files
  | none => return files
  | some path => do
    let bytes ← readBytes? path
    return fun other => if other = path then bytes else files other

def machineLine (path : String) : IO String := do
  match (← readBytes? path).bind fun bytes => String.fromUTF8? ⟨bytes.toArray⟩ with
  | some text => return text.trimAscii.toString.toLower
  | none => return "unknown"

partial def answerRequests (engine : Engine Float) : IO Unit := do
  let line ← (← IO.getStdin).getLine
  if line.isEmpty then return
  match line.trimAscii.toString.splitOn " " with
  | [method, path] =>
    let (next, response) := Http.respond engine method path
    IO.println (toString response.status)
    IO.println response.body.toText
    answerRequests next.settle
  | _ =>
    IO.println "400"
    answerRequests engine

def reportFailure (failure : Program.Failure) : IO Unit := do
  IO.eprintln ("Error: " ++ failure.message)
  match failure.cause? with
  | some cause => IO.eprintln ("\nCaused by:\n    " ++ cause)
  | none => return

def runProgram (arguments : List String) : IO UInt32 := do
  let files ← withFile (fun _ => none) (Program.settingsPath? arguments)
  let files ← withFile files (Program.recordingPath? files arguments)
  let outcome : Program.Outcome Float :=
    Program.run files (Int64.ofNat (← IO.monoMsNow)) arguments
  match outcome with
  | .refused => Program.usage.forM IO.eprintln
  | .help => Program.usage.forM IO.println
  | .version =>
    let system ← machineLine "/proc/sys/kernel/ostype"
    let machine ← machineLine "/proc/sys/kernel/arch"
    IO.println (Program.versionLine (system ++ "/" ++ machine))
  | .failed failure => reportFailure failure
  | .serving service => answerRequests service.engine
  return outcome.status.toUInt32

end NodeTelemetry

def main (arguments : List String) : IO UInt32 := NodeTelemetry.runProgram arguments
