import LoadReport.Log.Basic
import LoadReport.Results
import LoadReport.Settings.Environment
import LoadReport.Summary.Query

/-!
# Sessions

A session is what one use of the library goes through: settings are loaded
anew, the log is configured, histograms are queried, and the host program
logs messages of its own in between. Its state is the settings in force and
the log; each event answers with a reply or an error and with what was
logged meanwhile.

Settings change only when they are loaded, and a load that fails changes
nothing. Everything that is asked for without settings of its own takes those
in force.
-/

namespace LoadReport

/-- The state of a session. -/
structure Session where
  settings : Settings := {}
  log : Log := {}
deriving DecidableEq

/-- What may happen in a session. -/
inductive Event
  /-- Settings are loaded from an environment and a file of variables. -/
  | reload (environment : List (String × String)) (file : String)
  /-- The settings in force are asked for. -/
  | inspect
  /-- The host program adds a handler of its own. -/
  | addHost
  /-- The log is configured, with the settings in force unless others are
  given. -/
  | configure (settings : Option LoggingSettings)
  /-- The host program logs a message. -/
  | emit (level message : String)
  /-- A histogram is queried. -/
  | query (query : Query) (histogram : Histogram)
  /-- The latencies of a run are summarized, with the percentiles in force
  unless others are given. -/
  | summarize (results : Results) (percentiles : Option (List Number))

inductive Reply
  | done
  | settings (settings : Settings)
  | summary (summary : Option Summary)
deriving DecidableEq

inductive SessionError
  | settings (error : SettingsError)
  | log (error : LogError)
  | figures (fault : Fault)
deriving DecidableEq

/-- What an event leads to. -/
structure Response where
  outcome : Except SessionError Reply
  deliveries : List Delivery := []

namespace Session

/-- The settings after a load: the loaded ones, or those before if there are
none. -/
def reload (s : Session) (environment : List (String × String)) (file : String) :
    Session × Response :=
  match Settings.load environment file with
  | .ok settings => ({ s with settings }, { outcome := .ok (.settings settings) })
  | .error e => (s, { outcome := .error (.settings e) })

/-- The library computes a summary, and logs its notices. -/
def compute (s : Session) (run : Noted (Option Summary)) : Session × Response :=
  let (log, deliveries) := s.log.note run.notices
  let outcome := match run.outcome with
    | .ok summary => .ok (.summary summary)
    | .error fault => .error (.figures fault)
  ({ s with log }, { outcome, deliveries })

/-- The reply of a step that has nothing to tell. -/
def replyDone : Except LogError Unit → Except SessionError Reply
  | .ok () => .ok .done
  | .error e => .error (.log e)

/-- What an event does. -/
def step (s : Session) : Event → Session × Response
  | .reload environment file => s.reload environment file
  | .inspect => (s, { outcome := .ok (.settings s.settings) })
  | .addHost => ({ s with log := s.log.addHost }, { outcome := .ok .done })
  | .configure settings =>
      let (log, result) := s.log.configure (settings.getD s.settings.logging)
      ({ s with log }, { outcome := replyDone result })
  | .emit level message =>
      let (log, deliveries, result) := s.log.emit level message
      ({ s with log }, { outcome := replyDone result, deliveries })
  | .query query histogram => s.compute (query.run histogram)
  | .summarize results percentiles =>
      s.compute (results.latencySummary s.settings percentiles)

def run (s : Session) (events : List Event) : Session :=
  events.foldl (fun s event => (s.step event).1) s

@[simp] theorem run_nil (s : Session) : s.run [] = s := rfl

@[simp] theorem run_cons (s : Session) (event : Event) (events : List Event) :
    s.run (event :: events) = (s.step event).1.run events := rfl

theorem run_append (s : Session) (before after : List Event) :
    s.run (before ++ after) = (s.run before).run after := by
  simp [run]

end Session
end LoadReport
