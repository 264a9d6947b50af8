import LoadReport.Proofs.Except
import LoadReport.Session

/-!
# Settings in force

An event loads settings or it does not, and whether it does has nothing to do
with the session: it is a matter of the sources alone (`Event.loaded?`). So the
settings in force are the last ones loaded (`settings_run`), and a run does not
remember those before.

What is asked for without settings of its own obeys those in force: it leads to
the same as if they had been given. This has to be said of a session that is
under any other settings (`Obeys`). It would not do to give them to the session
that has them in force already, as they could then have been taken from there.
-/

namespace LoadReport

/-- The settings that an event loads. A load that fails gives none. -/
def Event.loaded? : Event → Option Settings
  | reload environment file => (Settings.load environment file).toOption
  | _ => none

namespace Session

/-- The session with other settings in force. -/
def under (s : Session) (settings : Settings) : Session := { s with settings }

/-- All that comes of an event, other than settings. -/
def logged (next : Session × Response) : Log × Response := (next.1.log, next.2)

/-! ## What is loaded -/

theorem step_reload_of_ok {environment : List (String × String)} {file : String}
    {settings : Settings} (h : Settings.load environment file = .ok settings) (s : Session) :
    s.step (.reload environment file)
      = (s.under settings, { outcome := .ok (.settings settings) }) := by
  simp only [step, reload, h, under]

/-- A load that fails changes nothing. -/
theorem step_reload_of_error {environment : List (String × String)} {file : String}
    {e : SettingsError} (h : Settings.load environment file = .error e) (s : Session) :
    s.step (.reload environment file) = (s, { outcome := .error (.settings e) }) := by
  simp only [step, reload, h]

theorem settings_step (s : Session) (event : Event) :
    (s.step event).1.settings = event.loaded?.getD s.settings := by
  cases event with
  | reload environment file =>
      simp only [Event.loaded?]
      cases h : Settings.load environment file with
      | ok settings =>
          rw [step_reload_of_ok h]
          rfl
      | error e =>
          rw [step_reload_of_error h]
          rfl
  | inspect => rfl
  | addHost => rfl
  | configure settings => rfl
  | emit level message => rfl
  | query query histogram => rfl
  | summarize results percentiles => rfl

/-- **The settings in force are the last ones loaded.** -/
theorem settings_run (s : Session) (events : List Event) :
    (s.run events).settings
      = ((events.filterMap Event.loaded?).getLast?).getD s.settings := by
  induction events generalizing s with
  | nil => rfl
  | cons event events ih =>
      rw [run_cons, ih, settings_step, List.filterMap_cons]
      cases event.loaded? with
      | none => rfl
      | some settings =>
          rw [List.getLast?_cons]
          rfl

/-! ## What is asked for without settings -/

/-- What is asked of a session without settings is answered as if these had been
given, whatever settings are in force then. -/
structure Obeys (s : Session) (settings : Settings) : Prop where
  configure : ∀ other, logged ((s.under other).step (.configure (some settings.logging)))
    = logged (s.step (.configure none))
  latencies : ∀ other results,
    logged ((s.under other).step
        (.summarize results (some (settings.statistics.percentiles.map .float))))
      = logged (s.step (.summarize results none))
  throughput : ∀ other (results : Results),
    logged ((s.under other).step
        (.query (.throughput (settings.statistics.percentiles.map .float)) results.requests))
      = logged (s.compute (results.throughputSummary s.settings none))
  report : ∀ other (results : Results),
    results.report other (some (settings.statistics.percentiles.map .float))
      = results.report s.settings none

theorem obeys (s : Session) : s.Obeys s.settings where
  configure _ := by simp only [step, under, logged, Option.getD_some, Option.getD_none]
  latencies _ _ := rfl
  throughput _ _ := rfl
  report _ _ := rfl

/-- **What is in force after a run.** It is what was loaded last, or else what there
was at the start, in a new session the defaults; and all that is asked for without
settings obeys it. A load that fails leaves the session as it is, both sections of
the settings included; one that succeeds leaves nothing of the settings before,
whatever these were; and nothing else touches settings. -/
theorem inForce_run (start : Session) (events : List Event) :
    let s := start.run events
    let inForce := ((events.filterMap Event.loaded?).getLast?).getD start.settings
    s.settings = inForce ∧ s.Obeys inForce
      ∧ (∀ event, event.loaded? = none → (s.step event).1.settings = inForce)
      ∧ (∀ environment file e, Settings.load environment file = .error e →
        s.step (.reload environment file) = (s, { outcome := .error (.settings e) }))
      ∧ ∀ environment file settings, Settings.load environment file = .ok settings →
        ∀ before : Session, (before.step (.reload environment file)).1 = before.under settings := by
  intro s inForce
  have hsettings : s.settings = inForce := settings_run start events
  refine ⟨hsettings, ?_, fun event hnone => ?_, fun _ _ _ h => step_reload_of_error h s,
    fun _ _ _ h before => ?_⟩
  · rw [← hsettings]
    exact s.obeys
  · rw [settings_step, hnone, ← hsettings]
    rfl
  · rw [step_reload_of_ok h]

/-- Of two loads the second is refused for its percentiles, and takes its level of
the console along. The first stays in force, and its percentiles are reported. -/
theorem inForce_run_refused :
    let loading : Event := .reload [("SALVO__STATISTICS__PERCENTILES", "[0.5]")]
      "SALVO__LOGGING__CONSOLE_LOG_LEVEL=DEBUG"
    let refused : Event := .reload [("SALVO__STATISTICS__PERCENTILES", "[2]")]
      "SALVO__LOGGING__CONSOLE_LOG_LEVEL=ERROR"
    let s := Session.run {} [loading, .inspect, refused]
    let settings : Settings :=
      { logging := { consoleLogLevel := "DEBUG" }, statistics := { percentiles := [.half] } }
    s.settings = settings
      ∧ (s.step .inspect).1.settings = settings
      ∧ (s.step refused).1 = s
      ∧ (s.step loading).1 = s.under settings
      ∧ s.Obeys settings := by
  intro loading refused s settings
  have hloaded : loading.loaded? = some settings := by decide +kernel
  have hrefused : refused.loaded? = none := by decide +kernel
  have hrun : Session.run {} [loading, .inspect, refused] = s := rfl
  have hlast : (([loading, .inspect, refused].filterMap Event.loaded?).getLast?).getD {}
      = settings := by
    simp only [List.filterMap_cons_some hloaded, List.filterMap_cons_none hrefused,
      List.filterMap_cons_none (show Event.inspect.loaded? = none from rfl), List.filterMap_nil,
      List.getLast?_singleton, Option.getD_some]
  obtain ⟨hsettings, hobeys, hothers, herror, hok⟩ :=
    inForce_run {} [loading, .inspect, refused]
  rw [hlast] at hsettings hobeys hothers
  rw [hrun] at hsettings hothers
  obtain ⟨e, he⟩ := Except.toOption_eq_none_iff.mp hrefused
  refine ⟨hsettings, hothers .inspect rfl, ?_, ?_, hobeys⟩
  · rw [herror _ _ e he]
  · exact hok _ _ settings (Except.toOption_eq_some_iff.mp hloaded) s

end Session
end LoadReport
