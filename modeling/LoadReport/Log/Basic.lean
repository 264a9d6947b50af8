import LoadReport.Log.FilePath
import LoadReport.Log.Record
import LoadReport.Settings.Basic
import LoadReport.Summary.Notice
import LoadReport.Table
import LoadReport.Text.UpperCase

/-!
# The log

The log is shared between this library and the program that uses it, its
host. Messages of the library are held back until the log is configured for
the first time, and whenever it was last configured to be disabled; messages
of the host are never held back.

Configuring happens in steps: the library's messages are let through, the
handlers in place may be removed, a handler for the console is installed, and
perhaps one for a file. A step fails if a level has no name of a severity, or
if the template of a file gives no path, and the steps before it stay done. A
file exists as soon as a handler for its path was asked for, whatever the
level.
-/

namespace LoadReport

/-- The state of logging. -/
structure Log where
  /-- The handlers in the order in which they were installed. -/
  handlers : List Handler := []
  /-- How many handlers were ever installed. -/
  installed : Nat := 0
  /-- Whether messages of the library are let through. -/
  enabled : Bool := false
  /-- The lines of each file. -/
  files : Table String (List Line) := []
  /-- The time, which does not go on: when something is logged is not kept. -/
  clock : Calendar.Moment := .epoch
deriving DecidableEq

/-- Why a step failed. -/
inductive LogError
  | unknownLevel (level : String)
  | path (error : FilePath.Error)
deriving DecidableEq, Repr

def LogError.message : LogError → String
  | unknownLevel level => "Level '" ++ level ++ "' does not exist"
  | path error => error.message

/-- The severity with a name, or the objection to it. -/
def Severity.named (name : String) : Except LogError Severity :=
  match ofName? name with
  | some s => .ok s
  | none => .error (.unknownLevel name)

namespace LoggingSettings

/-- The file that is written unless another one is named. -/
def defaultFile : String := "salvo.log"

def defaultFileLevel : String := Severity.info.name

/-- The template of the file that is asked for and its level, if there is
one. Naming either of the two asks for a file; the empty text names nothing. -/
def file? (s : LoggingSettings) : Option (String × String) :=
  let named (text : Option String) : Option String := text.filter fun t => !t.isEmpty
  match named s.logFile, named s.logFileLevel with
  | none, none => none
  | template, level =>
      some (template.getD defaultFile, Text.upperCase (level.getD defaultFileLevel))

end LoggingSettings

namespace Log

/-! ## Handlers -/

/-- Makes sure that the file of a sink exists. -/
def openSink (log : Log) : Sink → Log
  | .file path =>
      { log with files := Table.update (· == ·) path (fun old => old.getD []) log.files }
  | _ => log

def install (log : Log) (sink : Sink) (threshold : Severity) : Log :=
  { log with
    handlers := log.handlers ++ [{ serial := log.installed, sink, threshold }]
    installed := log.installed + 1 }

/-- Adds a handler, given the name of its level. -/
def addHandler (log : Log) (sink : Sink) (level : String) : Log × Except LogError Unit :=
  let log := log.openSink sink
  match Severity.named level with
  | .ok threshold => (log.install sink threshold, .ok ())
  | .error e => (log, .error e)

def addHost (log : Log) : Log := log.install .host .debug

/-- Lets the library's messages through, and clears the handlers if that is
wanted. -/
def enable (log : Log) (clear : Bool) : Log :=
  { log with enabled := true, handlers := if clear then [] else log.handlers }

def configure (log : Log) (settings : LoggingSettings) : Log × Except LogError Unit :=
  if settings.disabled then ({ log with enabled := false }, .ok ())
  else
    let (log, console) := (log.enable settings.clearLoggers).addHandler .console
      (Text.upperCase settings.consoleLogLevel)
    match console, settings.file? with
    | .error e, _ => (log, .error e)
    | .ok (), none => (log, .ok ())
    | .ok (), some (template, level) =>
        match FilePath.ofTemplate log.clock template with
        | .error e => (log, .error (.path e))
        | .ok path => log.addHandler (.file path) level

/-! ## Messages -/

/-- Whether a message is let through. -/
def admits (log : Log) (origin : Origin) : Bool :=
  decide (origin = .host) || log.enabled

/-- The handlers that a record reaches. -/
def deliveries (log : Log) (r : Record) : List Delivery :=
  if log.admits r.origin then
    (log.handlers.filter fun h => h.accepts r).map fun h => { handler := h, record := r }
  else
    []

/-- Writes what is delivered to files. -/
def write (log : Log) (ds : List Delivery) : Log :=
  { log with
    files := (ds.filterMap Delivery.fileLine?).foldl (fun files (path, line) =>
      Table.update (· == ·) path (fun old => old.getD [] ++ [line]) files) log.files }

/-- Logs records one after another. -/
def record (log : Log) (rs : List Record) : Log × List Delivery :=
  let ds := rs.flatMap log.deliveries
  (log.write ds, ds)

/-- The host program logs a message at a level, which is looked at only if
there are handlers. -/
def emit (log : Log) (level message : String) :
    Log × List Delivery × Except LogError Unit :=
  if log.handlers.isEmpty then (log, [], .ok ())
  else
    match Severity.named level with
    | .error e => (log, [], .error e)
    | .ok severity =>
        let (log, ds) := log.record [{ origin := .host, severity, message }]
        (log, ds, .ok ())

def ofNotice (n : Notice) : Record where
  origin := .library
  severity := .debug
  message := n.text

/-- The library logs its notices. -/
def note (log : Log) (ns : List Notice) : Log × List Delivery :=
  log.record (ns.map ofNotice)

/-- The files in the working directory and below it. -/
def localFiles (log : Log) : Table String (List Line) :=
  log.files.filter fun file => FilePath.isLocal file.1

/-! ## What operations leave alone -/

@[simp] theorem openSink_handlers (log : Log) (sink : Sink) :
    (log.openSink sink).handlers = log.handlers := by
  cases sink <;> rfl

@[simp] theorem openSink_enabled (log : Log) (sink : Sink) :
    (log.openSink sink).enabled = log.enabled := by
  cases sink <;> rfl

@[simp] theorem write_handlers (log : Log) (ds : List Delivery) :
    (log.write ds).handlers = log.handlers := rfl

@[simp] theorem write_enabled (log : Log) (ds : List Delivery) :
    (log.write ds).enabled = log.enabled := rfl

end Log
end LoadReport
