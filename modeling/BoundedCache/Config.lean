import BoundedCache.Store.Basic
import BoundedCache.Text.Utf8
import BoundedCache.Text.WhiteSpace

namespace BoundedCache

/-!
# Configuration

`Config` is what the service is set up with, `Config.ofEnvironment` reads it from environment
variables, and `Config.problem?` finds the first reason why the service must not start with it.

A variable counts if its value is UTF-8 text and, apart from white space around it, an optional plus
sign and decimal digits that spell a number within the limit of its field; any other value is as
good as none, and the field keeps its default.
-/

/-- The setup of the service. -/
structure Config where
  /-- The byte budget in megabytes. -/
  maxSizeMb : Nat := 50
  /-- The time to live in seconds of entries that are stored without one. -/
  defaultTtl : Nat := 300
  /-- The port of the service. -/
  serverPort : Nat := 3000
  /-- The seconds between two sweeps. -/
  sweepInterval : Nat := 60
  deriving DecidableEq, Repr

/-- Why a service must not start with a configuration. -/
inductive ConfigProblem
  | noSpace
  | tooMuchSpace (megabytes : Nat)
  | noTtl
  | noSweepInterval
  deriving DecidableEq, Repr

/-- The wording of a problem. -/
def ConfigProblem.message : ConfigProblem → String
  | noSpace => "MAX_SIZE_MB must be greater than 0"
  | tooMuchSpace megabytes => "MAX_SIZE_MB is too large: " ++ String.ofList (decimal megabytes)
  | noTtl => "DEFAULT_TTL must be greater than 0"
  | noSweepInterval => "SWEEP_INTERVAL must be greater than 0"

/-! ### Numbers in variables -/

/-- How far a character is behind `0`. -/
def digitValue (c : Char) : Nat := c.toNat - '0'.toNat

/-- The value of an ASCII digit. -/
def digitValue? (c : Char) : Option Nat := if c.isDigit then some (digitValue c) else none

/-- A number, unless it is beyond a limit. -/
def within? (limit n : Nat) : Option Nat := if n ≤ limit then some n else none

/-- The number that digits spell behind the digits of `n`.  There is none if one of them is no ASCII
    digit, and none as soon as what is read so far is beyond a limit. -/
def readDigits? (limit n : Nat) : List Char → Option Nat
  | [] => some n
  | c :: digits => do
    let digit ← digitValue? c
    let tens ← within? limit (n * 10)
    let next ← within? limit (tens + digit)
    readDigits? limit next digits

/-- The number that ASCII digits spell, at least one, if it is not beyond a limit. -/
def digitsValue? (limit : Nat) (digits : List Char) : Option Nat :=
  if digits = [] then none else readDigits? limit 0 digits

/-- The number that the text of a variable spells, if it is not beyond a limit. -/
def variableNumber? (limit : Nat) (text : String) : Option Nat :=
  match Text.trim text.toList with
  | '+' :: digits => digitsValue? limit digits
  | digits => digitsValue? limit digits

/-- The number that the value of a variable stands for, if it is not beyond a limit. -/
def variableValue? (limit : Nat) (value : Bytes) : Option Nat :=
  (decodeUtf8? value).bind (variableNumber? limit)

namespace Config

/-- The configuration of an environment, which gives the values of its variables. -/
def ofEnvironment (environment : String → Option Bytes) : Config :=
  let field (name : String) (limit default : Nat) : Nat :=
    ((environment name).bind (variableValue? limit)).getD default
  let standard : Config := {}
  { maxSizeMb := field "MAX_SIZE_MB" Word.top standard.maxSizeMb
    defaultTtl := field "DEFAULT_TTL" Word.top standard.defaultTtl
    serverPort := field "SERVER_PORT" 65535 standard.serverPort
    sweepInterval := field "SWEEP_INTERVAL" Word.top standard.sweepInterval }

/-- The byte budget. -/
def maxSizeBytes (config : Config) : Nat := Word.mulSat config.maxSizeMb Store.megabyte

/-- The milliseconds between two sweeps. -/
def sweepMillis (config : Config) : Nat := config.sweepInterval * 1000

/-- The first reason why the service must not start. -/
def problem? (config : Config) : Option ConfigProblem :=
  if config.maxSizeMb = 0 then some .noSpace
  else if Word.top < config.maxSizeMb * Store.megabyte then some (.tooMuchSpace config.maxSizeMb)
  else if config.defaultTtl = 0 then some .noTtl
  else if config.sweepInterval = 0 then some .noSweepInterval
  else none

/-- The empty cache of a configuration. -/
def store (config : Config) : Store := .new config.maxSizeBytes config.defaultTtl

end Config

end BoundedCache
