import LoadReport.Proofs.Session.Step

/-!
# A configuration that fails

Configuring does not take back what it did before it failed. By then the
library's messages are let through, the handlers in place were removed if that
is wanted, and the console is installed if its level was not the objection. Only
the file is missing (`configure_of_error`).

So a failure goes unnoticed in one case only: the library was let through before,
there was nothing to remove, and the console failed. The simplest other case is
a wrong level for the console and everything else by default, which costs the
host all its handlers (`handlers_lost_of_error`). If handlers are not removed,
those of the host still receive all of its messages, as if nothing had been
tried, and if they are, none.
-/

namespace LoadReport
namespace Session

/-- A message of the host reaches every handler in place that accepts it. -/
theorem received_emit {s : Session} (hserial : s.log.Serial) (level message : String)
    (h : Handler) :
    (s.step (.emit level message)).2.received h
      = if h ∈ s.log.handlers then
          (Session.records {} (.emit level message)).filter fun r => h.accepts r
        else [] := by
  have hhost : ∀ r ∈ s.records (.emit level message), s.log.admits r.origin = true := by
    intro r hr
    simp only [records] at hr
    split at hr
    · obtain rfl := List.mem_singleton.mp hr
      rfl
    · cases hr
  rw [received_step hserial]
  split
  · refine List.filter_congr fun r hr => ?_
    rw [hhost r hr, Bool.true_and]
  · rfl

/-! ## What is left -/

/-- What a configuration that failed leaves of a session. -/
structure LeftOf (s : Session) (c : LoggingSettings) (next : Session) : Prop where
  settings : next.settings = s.settings
  enabled : next.log.enabled = true
  handlers : next.log.handlers = (if c.clearLoggers then [] else s.log.handlers)
    ++ Log.numbered s.log.installed c.consoleSink?.toList
  installed : s.log.installed ≤ next.log.installed
  serial : s.log.Serial → next.log.Serial

theorem leftOf_of_error {s : Session} {settings : Option LoggingSettings} {c : LoggingSettings}
    {e : SessionError} (hc : settings.getD s.settings.logging = c)
    (h : (s.step (.configure settings)).2.outcome = .error e) :
    LeftOf s c (s.step (.configure settings)).1 := by
  have hconfigured := Log.configured s.log c
  have hserial := (stepped s (.configure settings)).serial
  simp only [step, hc] at h hserial ⊢
  cases hresult : (s.log.configure c).2 with
  | ok u =>
      rw [hresult] at h
      cases h
  | error e' =>
      obtain ⟨hdisabled, hsinks⟩ := Log.sinks_of_error hresult
      have hclears : c.clears = c.clearLoggers := by
        rw [LoggingSettings.clears, hdisabled, Bool.not_false, Bool.true_and]
      refine ⟨rfl, ?_, ?_, ?_, hserial⟩
      · rw [hconfigured.enabled, hdisabled, Bool.not_false]
      · rw [hconfigured.handlers, hclears, hsinks]
      · rw [hconfigured.installed]
        omega

/-- The failure goes unnoticed if everything was let through, the console failed
and there was nothing to remove. -/
theorem LeftOf.unchanged_iff {s next : Session} {c : LoggingSettings} (h : LeftOf s c next)
    (hserial : s.log.Serial) :
    (next.log.handlers = s.log.handlers ∧ next.log.enabled = s.log.enabled) ↔
      s.log.enabled = true ∧ c.consoleSink? = none
        ∧ (c.clearLoggers = false ∨ s.log.handlers = []) := by
  have hhandlers := h.handlers
  constructor
  · rintro ⟨hsame, hflag⟩
    refine ⟨hflag.symm.trans h.enabled, ?_⟩
    rw [hsame] at hhandlers
    cases hsink : c.consoleSink? with
    | some console =>
        -- a console that was installed has a serial that no handler had before
        have hin : (⟨s.log.installed, console.1, console.2⟩ : Handler) ∈ s.log.handlers := by
          rw [hhandlers, hsink]
          exact List.mem_append_right _ (List.mem_singleton_self _)
        exact absurd (hserial.lt_installed _ hin) (Nat.lt_irrefl _)
    | none =>
        refine ⟨rfl, ?_⟩
        cases hclear : c.clearLoggers with
        | false => exact Or.inl rfl
        | true =>
            rw [hsink, hclear] at hhandlers
            exact Or.inr hhandlers
  · rintro ⟨hflag, hconsole, hkept⟩
    refine ⟨?_, h.enabled.trans hflag.symm⟩
    rw [hhandlers, hconsole]
    rcases hkept with hclear | hempty
    · rw [hclear]
      exact List.append_nil _
    · rw [hempty]
      cases c.clearLoggers <;> rfl

theorem LeftOf.mem_run_iff {s next : Session} {c : LoggingSettings} (hleft : LeftOf s c next)
    (hserial : s.log.Serial) {h : Handler} (hmem : h ∈ s.log.handlers) (later : List Event) :
    h ∈ (next.run later).log.handlers ↔
      c.clearLoggers = false ∧ h ∈ (s.run later).log.handlers := by
  have hold := hserial.lt_installed h hmem
  have hnew : h ∉ Log.numbered s.log.installed c.consoleSink?.toList :=
    Log.not_mem_numbered hold
  rw [mem_handlers_run (Nat.lt_of_lt_of_le hold hleft.installed), mem_handlers_run hold,
    configurations_congr hleft.settings, hleft.handlers]
  cases c.clearLoggers with
  | true => simp [hnew]
  | false => simp [hmem]

/-- A handler that was in place receives the host's messages as if nothing had
been tried, unless it was removed. -/
theorem LeftOf.received_eq {s next : Session} {c : LoggingSettings} (hleft : LeftOf s c next)
    (hserial : s.log.Serial) {h : Handler} (hmem : h ∈ s.log.handlers) (later : List Event)
    (level message : String) :
    ((next.run later).step (.emit level message)).2.received h
      = if c.clearLoggers then []
        else ((s.run later).step (.emit level message)).2.received h := by
  rw [received_emit (serial_run (hleft.serial hserial) later),
    received_emit (serial_run hserial later)]
  simp only [hleft.mem_run_iff hserial hmem later]
  cases c.clearLoggers <;> simp

/-- **A configuration that fails is not taken back.** The library is let through,
the handlers in place are all kept or all removed, as the settings have it, and
behind them stands the console if its level was not what failed. That is no
change only in the one case that is stated. A handler that was in place receives
all later messages of the host as if nothing had been tried if handlers are kept,
and none of them otherwise. -/
theorem configure_of_error (start : Settings) (before : List Event)
    {settings : Option LoggingSettings} {e : SessionError}
    (hfails : ((Session.run { settings := start } before).step (.configure settings)).2.outcome
      = .error e) :
    let s := Session.run { settings := start } before
    let c := settings.getD s.settings.logging
    let next := (s.step (.configure settings)).1
    next.log.enabled = true
      ∧ next.log.handlers = (if c.clearLoggers then [] else s.log.handlers)
          ++ Log.numbered s.log.installed c.consoleSink?.toList
      ∧ (next.log.handlers = s.log.handlers ∧ next.log.enabled = s.log.enabled ↔
          s.log.enabled = true ∧ c.consoleSink? = none
            ∧ (c.clearLoggers = false ∨ s.log.handlers = []))
      ∧ ∀ h ∈ s.log.handlers, ∀ (later : List Event) (level message : String),
          ((next.run later).step (.emit level message)).2.received h
            = if c.clearLoggers then []
              else ((s.run later).step (.emit level message)).2.received h := by
  intro s c next
  have hserial : s.log.Serial := serial_run (serial_initial start) before
  have hleft : LeftOf s c next := leftOf_of_error (s := s) (c := c) (e := e) rfl hfails
  exact ⟨hleft.enabled, hleft.handlers, hleft.unchanged_iff hserial,
    fun h hmem later level message => hleft.received_eq hserial hmem later level message⟩

/-- The level of the file is wrong. The console is there, and the host's handler
receives what is logged after the next one was added. -/
theorem configure_of_error_file :
    let settings : LoggingSettings :=
      { clearLoggers := false, consoleLogLevel := "info", logFileLevel := some "loud" }
    let failed := (Session.run {} [.addHost]).step (.configure (some settings))
    failed.2.outcome = .error (.log (.unknownLevel "LOUD"))
      ∧ failed.1.log.handlers = [⟨0, .host, .debug⟩, ⟨1, .console, .info⟩]
      ∧ ((failed.1.run [.addHost]).step (.emit "DEBUG" "hello")).2.received ⟨0, .host, .debug⟩
        = [⟨.host, .debug, "hello"⟩] := by
  intro settings failed
  have hfails : failed.2.outcome = .error (.log (.unknownLevel "LOUD")) := by decide +kernel
  have hmem : (⟨0, .host, .debug⟩ : Handler) ∈ (Session.run {} [.addHost]).log.handlers := by
    decide +kernel
  have hreceived : (((Session.run {} [.addHost]).run [.addHost]).step
      (.emit "DEBUG" "hello")).2.received ⟨0, .host, .debug⟩ = [⟨.host, .debug, "hello"⟩] := by
    decide +kernel
  obtain ⟨-, hhandlers, -, hlater⟩ := configure_of_error {} [.addHost] hfails
  refine ⟨hfails, ?_, ?_⟩
  · refine hhandlers.trans ?_
    decide +kernel
  · refine (hlater _ hmem [.addHost] "DEBUG" "hello").trans ?_
    exact (if_neg Bool.false_ne_true).trans hreceived

/-- A wrong level for the console, and the host's handler is gone. -/
theorem handlers_lost_of_error :
    let s := Session.run {} [.addHost]
    let failed := s.step (.configure (some { consoleLogLevel := "LOUD" }))
    failed.2.outcome = .error (.log (.unknownLevel "LOUD"))
      ∧ s.log.handlers = [⟨0, .host, .debug⟩] ∧ failed.1.log.handlers = []
      ∧ s.log.enabled = false ∧ failed.1.log.enabled = true
      ∧ (s.step (.emit "INFO" "hello")).2.received ⟨0, .host, .debug⟩
        = [⟨.host, .info, "hello"⟩]
      ∧ (failed.1.step (.emit "INFO" "hello")).2.received ⟨0, .host, .debug⟩ = [] := by
  decide +kernel

end Session
end LoadReport
