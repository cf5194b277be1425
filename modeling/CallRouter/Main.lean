import CallRouter.Config.File
import CallRouter.Failure

namespace CallRouter.Program

def chunkSize : USize := 8192

def deliver (output : IO.FS.Stream) (server : Server) : IO Server := do
  output.write ⟨(server.written.flatMap fun (_, bytes) => bytes).toArray⟩
  output.flush
  return { server with written := [] }

partial def serve (input output : IO.FS.Stream) (id : Nat) (server : Server) : IO Unit := do
  let chunk ← input.read chunkSize
  let now := Time.milliseconds (← IO.monoMsNow)
  if chunk.isEmpty then
    let _ ← deliver output (server.drop now id)
  else
    let seed ← IO.rand 0 maxId
    let server := (server.sweep now).receive now (seed + ·) id chunk.toList
    let server ← deliver output server
    if server.connections.contains id then serve input output id server

def variableNames : List String :=
  ["WAMPD_BIND", "WAMPD_IDLE_TIMEOUT", "WAMPD_MAX_CONNECTIONS", "WAMPD_WIRE_MODE", "WAMPD_REALM",
    "WAMPD_CANCEL_MODE", "WAMPD_TIMEOUT_SWEEP_MS", "WAMPD_METRICS_ENABLED", "WAMPD_METRICS_BIND"]

def readEnvironment : IO Environment := do
  let values ← variableNames.mapM fun name => return (name, ← IO.getEnv name)
  return fun name => (values.lookup name).join

def readFile : IO (Option Config.File) := do
  match ← IO.getEnv "WAMPD_CONFIG" with
  | none => return none
  | some path =>
    let content ← (IO.FS.readFile path).toBaseIO
    return some ⟨path, content.mapError toString⟩

def run (config : Config) : IO Unit := do
  let id ← IO.rand 1 maxId
  let now := Time.milliseconds (← IO.monoMsNow)
  match config.measuredServer.connect? now id with
  | none => return
  | some server => serve (← IO.getStdin) (← IO.getStdout) id server

end CallRouter.Program

open CallRouter Program

def main : IO UInt32 := do
  match Config.loadOrDefault (← readFile) (← readEnvironment) with
  | .error fault =>
    IO.eprintln (Failure.config fault).message
    return 1
  | .ok config =>
    run config
    return 0
