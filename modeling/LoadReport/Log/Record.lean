/-!
# Records and handlers

A log record is a message with a severity and an origin: it comes from this
library or from the program that uses it. A handler writes records to its
sink, but only those that are at least as severe as its threshold.
-/

namespace LoadReport

inductive Severity
  | trace
  | debug
  | info
  | success
  | warning
  | error
  | critical
deriving DecidableEq, Repr

namespace Severity

def name : Severity → String
  | trace => "TRACE"
  | debug => "DEBUG"
  | info => "INFO"
  | success => "SUCCESS"
  | warning => "WARNING"
  | error => "ERROR"
  | critical => "CRITICAL"

def weight : Severity → Nat
  | trace => 5
  | debug => 10
  | info => 20
  | success => 25
  | warning => 30
  | error => 40
  | critical => 50

/-- The severity with a name, which has to be in capitals. -/
def ofName? (name : String) : Option Severity :=
  [trace, debug, info, success, warning, error, critical].find? fun s => s.name == name

theorem ofName?_name (s : Severity) : ofName? s.name = some s := by
  cases s <;> decide

end Severity

/-- Who made a message. -/
inductive Origin
  | library
  | host
deriving DecidableEq, Repr

namespace Origin

def moduleName : Origin → String
  | library => "salvo.metrics.stats"
  | host => "__main__"

def functionName : Origin → String
  | library => "compute_stats"
  | host => "emit"

end Origin

/-- A message with its severity and its origin. -/
structure Record where
  origin : Origin
  severity : Severity
  message : String
deriving DecidableEq, Repr

/-- Where records are written to: a function of the host program that takes
the bare message, the console, or a file. -/
inductive Sink
  | host
  | console
  | file (path : String)
deriving DecidableEq, Repr

/-- A sink with its threshold. Handlers are numbered in the order in which
they are installed. -/
structure Handler where
  serial : Nat
  sink : Sink
  threshold : Severity
deriving DecidableEq, Repr

/-- Whether a record is severe enough for a handler. -/
def Handler.accepts (h : Handler) (r : Record) : Bool :=
  decide (h.threshold.weight ≤ r.severity.weight)

/-- A record that reaches a handler. -/
structure Delivery where
  handler : Handler
  record : Record
deriving DecidableEq, Repr

/-- A record as it is written to the console or to a file. -/
structure Line where
  level : String
  moduleName : String
  functionName : String
  message : String
  /-- The layout of files, which shows the time more exactly. -/
  inFile : Bool
deriving DecidableEq, Repr

/-- How many characters the level takes up in a line. -/
def levelWidth : Nat := 8

/-- A text with blanks behind it, up to a width. -/
def padEnd (width : Nat) (text : String) : String :=
  text ++ String.ofList (List.replicate (width - text.length) ' ')

def Record.line (r : Record) (inFile : Bool) : Line where
  level := padEnd levelWidth r.severity.name
  moduleName := r.origin.moduleName
  functionName := r.origin.functionName
  message := r.message
  inFile := inFile

namespace Delivery

/-- What the host program receives. -/
def hostMessage? (d : Delivery) : Option String :=
  match d.handler.sink with
  | .host => some d.record.message
  | _ => none

/-- What is written to the console. -/
def consoleLine? (d : Delivery) : Option Line :=
  match d.handler.sink with
  | .console => some (d.record.line false)
  | _ => none

/-- What is written to a file, with its path. -/
def fileLine? (d : Delivery) : Option (String × Line) :=
  match d.handler.sink with
  | .file path => some (path, d.record.line true)
  | _ => none

end Delivery
end LoadReport
