import BoundedCache.Decimal.Text
import BoundedCache.Event

namespace BoundedCache

/-!
# The log of the service

A `Report` is one line of the log: how important it is, which part of the service wrote it, a
message and details.  A `Filter` decides which reports are written (`Filter.accepts`).  It is read
from a list of directives, each of which names a part of the service, a level, or both; the
directive with the longest matching name decides.
-/

/-- The thresholds that a directive can set. -/
inductive Threshold
  | off
  | error
  | warn
  | info
  | debug
  | trace
  deriving DecidableEq, Repr

/-- The rank of a threshold: it lets through the levels up to its rank. -/
def Threshold.rank : Threshold → Nat
  | off => 0
  | error => 1
  | warn => 2
  | info => 3
  | debug => 4
  | trace => 5

/-- The rank that a threshold needs to let a level through. -/
def Level.rank : Level → Nat
  | warn => 2
  | info => 3
  | debug => 4

/-- The name of a level. -/
def Level.name : Level → String
  | warn => "WARN"
  | info => "INFO"
  | debug => "DEBUG"

/-- A line of the log. -/
structure Report where
  level : Level
  /-- The part of the service that writes. -/
  origin : String
  message : String
  fields : List (String × Detail) := []
  deriving DecidableEq, Repr

/-- The text of a detail. -/
def Detail.render : Detail → String
  | count n => String.ofList (decimal n)
  | text s => s

/-- The text of a line. -/
def Report.render (report : Report) : String :=
  report.level.name ++ " " ++ report.origin ++ ": " ++ report.message
    ++ String.join (report.fields.map fun field => " " ++ field.1 ++ "=" ++ field.2.render)

/-! ### Filters -/

/-- A threshold for the parts of the service whose names start in a certain way. -/
structure Directive where
  origin : String
  threshold : Threshold
  deriving DecidableEq, Repr

/-- The directives that are in force. -/
structure Filter where
  directives : List Directive
  deriving DecidableEq, Repr

/-- The threshold of a name or a digit. -/
def Threshold.ofName? (name : String) : Option Threshold :=
  match String.ofList (name.toList.map Char.toLower) with
  | "off" => some off
  | "0" => some off
  | "error" => some error
  | "1" => some error
  | "warn" => some warn
  | "2" => some warn
  | "info" => some info
  | "3" => some info
  | "debug" => some debug
  | "4" => some debug
  | "trace" => some trace
  | "5" => some trace
  | _ => none

/-- Whether a character may stand in the name of a part of the service. -/
def isOriginChar (c : Char) : Bool := c.isAlphanum || c == '_' || c == '-' || c == ':'

/-- The directive that a text stands for: a threshold for everything, a name for everything of that
    part, or a name and a threshold with an equality sign between them. -/
def Directive.parse? (text : String) : Option Directive :=
  match Threshold.ofName? text with
  | some threshold => some { origin := "", threshold }
  | none =>
    let origin := text.toList.takeWhile isOriginChar
    match text.toList.dropWhile isOriginChar with
    | [] => if origin.isEmpty then none else some ⟨String.ofList origin, .trace⟩
    | '=' :: threshold =>
      (Threshold.ofName? (String.ofList threshold)).map fun threshold =>
        ⟨String.ofList origin, threshold⟩
    | _ => none

namespace Filter

/-- The filter that lets the important reports of one part of the service through. -/
def standard (origin : String) : Filter := ⟨[⟨origin, .info⟩]⟩

/-- The filter that a list of directives stands for, unless one of them cannot be read.  Without any
    directive only errors are let through. -/
def parse? (text : String) : Option Filter :=
  let parts := (text.splitOn ",").filter fun part => !part.isEmpty
  if parts.isEmpty then some ⟨[⟨"", .error⟩]⟩
  else (parts.mapM Directive.parse?).map Filter.mk

/-- The directive that decides about a part of the service: the one with the longest name, and of
    several with the same name the last one. -/
def deciding? (filter : Filter) (origin : String) : Option Directive :=
  (filter.directives.filter fun d => d.origin.isPrefixOf origin).foldl
    (fun best d => match best with
      | some b => if b.origin.length ≤ d.origin.length then some d else some b
      | none => some d)
    none

/-- Whether a report is written. -/
def accepts (filter : Filter) (report : Report) : Bool :=
  match filter.deciding? report.origin with
  | some directive => decide (report.level.rank ≤ directive.threshold.rank)
  | none => false

end Filter

end BoundedCache
