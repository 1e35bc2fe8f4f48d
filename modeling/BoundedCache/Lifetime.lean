import BoundedCache.Config
import BoundedCache.Failure
import BoundedCache.Log
import BoundedCache.Sweeper

namespace BoundedCache

/-!
# The life of the service

`Lifetime.startUp` and `Lifetime.shutDown` are what the service reports before and after it serves
requests.  A configuration with a problem ends the process at once: `Lifetime.refusal?` is the
message for that.  `Lifetime.outcome` is the whole life of a process that is asked to end as soon as
it serves.
-/

/-- How a process is asked to end. -/
inductive Signal
  | interrupt
  | terminate
  deriving DecidableEq, Repr

namespace Lifetime

/-- The name of the service, under which it reports its start and its end. -/
def serviceName : String := "lookup_cache"

/-- The part of the service that an event comes from. -/
def originOf : Event → String
  | .oversized .. => serviceName ++ "::cache::store"
  | .evicted .. => serviceName ++ "::cache::store"
  | .patternInvalidated .. => serviceName ++ "::api::handlers"
  | .cleared => serviceName ++ "::api::handlers"
  | .reconfigured .. => serviceName ++ "::api::handlers"
  | .sweepStarted _ => serviceName ++ "::tasks::sweeper"
  | .sweepRemoved .. => serviceName ++ "::tasks::sweeper"
  | .sweepIdle _ => serviceName ++ "::tasks::sweeper"
  | .sweepOrphaned => serviceName ++ "::tasks::sweeper"
  | .sweepCancelled => serviceName ++ "::tasks::sweeper"
  | .sweepStopped => serviceName ++ "::tasks::sweeper"

/-- A report of the service about itself. -/
def ownReport (message : String) (fields : List (String × Detail)) : Report :=
  { level := .info, origin := serviceName, message, fields }

/-- The report of an event. -/
def reportOf (event : Event) : Report :=
  { level := event.level, origin := originOf event, message := event.message
    fields := event.fields }

/-- The report that comes before everything else. -/
def greeting : Report := ownReport "Starting lookup cache service" []

/-- What a process says that must not start, if its configuration has a problem. -/
def refusal? (config : Config) : Option String :=
  config.problem?.map fun problem =>
    "Error: invalid configuration\n\nCaused by:\n    "
      ++ (Failure.configuration problem.message).message ++ "\n"

/-- The sweeper of the service. -/
def sweeper (config : Config) : Sweeper := .spawn 0 config.sweepMillis

/-- The reports of a start, after the greeting.  The sweeper reports its interval as a word. -/
def startUp (config : Config) : List Report :=
  [ownReport "Configuration loaded" [("max_size_mb", .count config.maxSizeMb),
      ("default_ttl", .count config.defaultTtl), ("port", .count config.serverPort),
      ("sweep_interval", .count config.sweepInterval)],
    ownReport "Cache initialized" [],
    reportOf (.sweepStarted (Word.mulWrap config.sweepInterval 1000)),
    ownReport
      ("Server listening on http://0.0.0.0:" ++ String.ofList (decimal config.serverPort)) []]

/-- The report that a signal has come. -/
def signalReport : Signal → Report
  | .interrupt => ownReport "Received Ctrl+C, initiating shutdown..." []
  | .terminate => ownReport "Received SIGTERM, initiating shutdown..." []

/-- The reports of an orderly end. -/
def shutDown (config : Config) : List Report :=
  ((sweeper config).cancelEvents ++ [Event.sweepStopped]).map reportOf
    ++ [ownReport "Server shutdown complete" []]

/-- The filter of an environment. -/
def filterOf (environment : String → Option Bytes) : Filter :=
  (((environment "RUST_LOG").bind decodeUtf8?).bind Filter.parse?).getD (.standard serviceName)

/-- What a process leaves behind. -/
structure Outcome where
  exitCode : Nat
  /-- The lines of the log. -/
  log : List String
  /-- The text on the error output. -/
  errors : String
  deriving DecidableEq, Repr

/-- The life of a process that gets a signal once it serves. -/
def outcome (environment : String → Option Bytes) (signal : Signal) : Outcome :=
  let config := Config.ofEnvironment environment
  let lines (reports : List Report) :=
    (reports.filter (filterOf environment).accepts).map Report.render
  match refusal? config with
  | some errors => { exitCode := 1, log := lines [greeting], errors }
  | none =>
    let reports := greeting :: startUp config ++ signalReport signal :: shutDown config
    { exitCode := 0, log := lines reports, errors := "" }

end Lifetime

end BoundedCache
