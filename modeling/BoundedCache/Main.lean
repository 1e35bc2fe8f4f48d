import BoundedCache.Lifetime
import BoundedCache.Session

/-!
# The command

The service as a program.  It is set up by environment variables and takes its requests from
standard input, a line each: the method, the target and, where there is one, a JSON body, with a
blank between them.  It answers with a line of the status and the body, and ends with its input.
-/

namespace BoundedCache

/-- The variables that the program looks at. -/
def variableNames : List String :=
  ["MAX_SIZE_MB", "DEFAULT_TTL", "SERVER_PORT", "SWEEP_INTERVAL", "RUST_LOG"]

/-- The environment of the program. -/
def readEnvironment : IO (String → Option Bytes) := do
  let values ← variableNames.mapM fun name => do return (name, ← IO.getEnv name)
  return fun name => (values.lookup name).join.map encodeUtf8

/-- The request of a line. -/
def requestOfLine (line : String) : Http.Request :=
  let text := line.toList.takeWhile fun c => c != '\n' && c != '\r'
  let method := text.takeWhile (· != ' ')
  let rest := (text.drop method.length).drop 1
  let target := rest.takeWhile (· != ' ')
  let body := (rest.drop target.length).drop 1
  { method := String.ofList method
    path := Http.pathOfTarget (String.ofList target)
    headers := if body.isEmpty then [] else [(Http.contentType, "application/json")]
    body := encodeUtf8 (String.ofList body) }

/-- The line of a response. -/
def lineOfResponse (response : Http.Response) : String :=
  let body := match response.body with
    | .json text => " " ++ text
    | _ => ""
  String.ofList (decimal response.status) ++ body

/-- Writes the reports that a filter lets through. -/
def writeReports (filter : Filter) (reports : List Report) : IO Unit :=
  (reports.filter filter.accepts).forM fun report => IO.println report.render

/-- Answers requests until the input ends. -/
partial def serve (filter : Filter) (started : Nat) (session : Session) : IO Unit := do
  let line ← (← IO.getStdin).getLine
  if line.isEmpty then return
  let now ← IO.monoMsNow
  let passed := { session with clock := now }.perform "" (.elapse (now - started - session.taskTime))
  let turn := passed.session.perform (String.ofList (decimal now)) (.send 0 (requestOfLine line))
  writeReports filter ((passed.events ++ turn.events).map Lifetime.reportOf)
  match turn.response with
  | .http response => IO.println (lineOfResponse response)
  | _ => pure ()
  (← IO.getStdout).flush
  serve filter started turn.session

end BoundedCache

open BoundedCache in
/-- Runs the service. -/
def main : IO UInt32 := do
  let environment ← readEnvironment
  let filter := Lifetime.filterOf environment
  let config := Config.ofEnvironment environment
  writeReports filter [Lifetime.greeting]
  match Lifetime.refusal? config with
  | some errors =>
    IO.eprint errors
    return 1
  | none =>
    writeReports filter (Lifetime.startUp config)
    let started ← IO.monoMsNow
    serve filter started
      { store := config.store, clock := started, sweepers := [Lifetime.sweeper config] }
    writeReports filter (Lifetime.shutDown config)
    return 0
