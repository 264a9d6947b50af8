import LoadReport.Log.Basic

/-!
# What configuring leaves behind

Configuring goes through its steps until one fails. What it leaves behind can be
said without the steps: which sinks it installs is a matter of the settings and
the clock (`LoggingSettings.sinks`), the handlers in place before are all kept
or all removed, and the library's messages are let through or not. `Configured`
lists this, for a configuration that fails as well as for one that does not, and
`configured` is the only proof that looks at the steps.

A handler is known by its serial. Handlers may agree in everything else, as when
the console is configured twice, and then a message reaches both. That serials
are not used again is an invariant (`Log.Serial`).
-/

namespace LoadReport

/-! ## The sinks of a configuration -/

def Sink.atLevel? (sink : Sink) (level : String) : Option (Sink × Severity) :=
  (Severity.ofName? level).map fun threshold => (sink, threshold)

namespace LoggingSettings

def clears (c : LoggingSettings) : Bool := !c.disabled && c.clearLoggers

theorem clears_eq_false_iff {c : LoggingSettings} :
    c.clears = false ↔ ¬ (c.disabled = false ∧ c.clearLoggers = true) := by
  simp [clears]

def consoleSink? (c : LoggingSettings) : Option (Sink × Severity) :=
  Sink.console.atLevel? (Text.upperCase c.consoleLogLevel)

/-- The file, if there is to be one, its template gives a path and its level is
the name of a severity. -/
def fileSink? (c : LoggingSettings) (clock : Calendar.Moment) : Option (Sink × Severity) :=
  c.file?.bind fun file =>
    (FilePath.ofTemplate clock file.1).toOption.bind fun path => (Sink.file path).atLevel? file.2

/-- The sinks that are installed. There is no file without the console. -/
def sinks (c : LoggingSettings) (clock : Calendar.Moment) : List (Sink × Severity) :=
  if c.disabled then []
  else
    match c.consoleSink? with
    | none => []
    | some console => console :: (c.fileSink? clock).toList

end LoggingSettings

namespace Log

/-! ## Serials -/

/-- Handlers for sinks, numbered from a serial on. -/
def numbered : Nat → List (Sink × Severity) → List Handler
  | _, [] => []
  | serial, (sink, threshold) :: rest =>
      { serial, sink, threshold } :: numbered (serial + 1) rest

theorem map_numbered (serial : Nat) (sinks : List (Sink × Severity)) :
    (numbered serial sinks).map (fun h => (h.sink, h.threshold)) = sinks := by
  induction sinks generalizing serial with
  | nil => rfl
  | cons s rest ih => rw [numbered, List.map_cons, ih]

theorem serial_of_mem_numbered {serial : Nat} {sinks : List (Sink × Severity)} {h : Handler}
    (hmem : h ∈ numbered serial sinks) :
    serial ≤ h.serial ∧ h.serial < serial + sinks.length := by
  induction sinks generalizing serial with
  | nil => cases hmem
  | cons s rest ih =>
      rw [List.length_cons]
      rcases List.mem_cons.mp hmem with rfl | hmem
      · simp
      · have := ih hmem
        omega

theorem not_mem_numbered {serial : Nat} {sinks : List (Sink × Severity)} {h : Handler}
    (hold : h.serial < serial) : h ∉ numbered serial sinks := fun hmem =>
  absurd hold (Nat.not_lt_of_le (serial_of_mem_numbered hmem).1)

theorem numbered_append (serial : Nat) (xs ys : List (Sink × Severity)) :
    numbered serial (xs ++ ys) = numbered serial xs ++ numbered (serial + xs.length) ys := by
  induction xs generalizing serial with
  | nil => rfl
  | cons s rest ih =>
      rw [List.cons_append, numbered, numbered, ih, List.length_cons, Nat.add_right_comm,
        ← Nat.add_assoc, List.cons_append]

theorem pairwise_numbered (serial : Nat) (sinks : List (Sink × Severity)) :
    (numbered serial sinks).Pairwise fun a b => a.serial < b.serial := by
  induction sinks generalizing serial with
  | nil => exact List.Pairwise.nil
  | cons s rest ih =>
      refine List.pairwise_cons.mpr ⟨fun b hb => ?_, ih (serial + 1)⟩
      exact (serial_of_mem_numbered hb).1

/-- Serials ascend and were given out before. -/
structure Serial (log : Log) : Prop where
  ascending : log.handlers.Pairwise fun a b => a.serial < b.serial
  lt_installed : ∀ h ∈ log.handlers, h.serial < log.installed

theorem Serial.of_append {log next : Log} {kept : List Handler} {sinks : List (Sink × Severity)}
    (h : log.Serial) (hkept : kept.Sublist log.handlers)
    (hhandlers : next.handlers = kept ++ numbered log.installed sinks)
    (hinstalled : next.installed = log.installed + sinks.length) : next.Serial where
  ascending := by
    rw [hhandlers, List.pairwise_append]
    refine ⟨h.ascending.sublist hkept, pairwise_numbered _ _, fun a ha b hb => ?_⟩
    have hlt := h.lt_installed a (hkept.subset ha)
    have hle := (serial_of_mem_numbered hb).1
    omega
  lt_installed a ha := by
    rw [hhandlers] at ha
    rw [hinstalled]
    rcases List.mem_append.mp ha with ha | ha
    · have := h.lt_installed a (hkept.subset ha)
      omega
    · exact (serial_of_mem_numbered ha).2

theorem Serial.nodup {log : Log} (h : log.Serial) : log.handlers.Nodup :=
  h.ascending.imp fun {a b} hab heq => by
    rw [heq] at hab
    exact Nat.lt_irrefl _ hab

/-! ## The steps -/

/-- Handlers for some sinks are put behind those in place. Nothing else of the
log changes, files apart. -/
structure Added (log : Log) (sinks : List (Sink × Severity)) (next : Log) : Prop where
  handlers : next.handlers = log.handlers ++ numbered log.installed sinks
  installed : next.installed = log.installed + sinks.length
  enabled : next.enabled = log.enabled
  clock : next.clock = log.clock

theorem Added.refl (log : Log) : Added log [] log where
  handlers := (List.append_nil _).symm
  installed := rfl
  enabled := rfl
  clock := rfl

theorem Added.trans {log next last : Log} {xs ys : List (Sink × Severity)}
    (h : Added log xs next) (h' : Added next ys last) : Added log (xs ++ ys) last where
  handlers := by
    rw [h'.handlers, h.handlers, h.installed, numbered_append, List.append_assoc]
  installed := by
    rw [h'.installed, h.installed, List.length_append, Nat.add_assoc]
  enabled := h'.enabled.trans h.enabled
  clock := h'.clock.trans h.clock

theorem addHandler_of_named (log : Log) (sink : Sink) {level : String} {threshold : Severity}
    (h : Severity.ofName? level = some threshold) :
    log.addHandler sink level = ((log.openSink sink).install sink threshold, .ok ()) := by
  simp only [addHandler, Severity.named, h]

theorem addHandler_of_unknown (log : Log) (sink : Sink) {level : String}
    (h : Severity.ofName? level = none) :
    log.addHandler sink level = (log.openSink sink, .error (.unknownLevel level)) := by
  simp only [addHandler, Severity.named, h]

/-- A handler is added or it is not: a level that is the name of no severity
leaves the handlers alone. -/
theorem added_addHandler (log : Log) (sink : Sink) (level : String) :
    Added log (sink.atLevel? level).toList (log.addHandler sink level).1 := by
  unfold Sink.atLevel?
  cases h : Severity.ofName? level with
  | none =>
      rw [addHandler_of_unknown log sink h]
      cases sink <;> exact ⟨(List.append_nil _).symm, rfl, rfl, rfl⟩
  | some threshold =>
      rw [addHandler_of_named log sink h]
      cases sink <;> exact ⟨rfl, rfl, rfl, rfl⟩

theorem atLevel?_eq_none {log : Log} {sink : Sink} {level : String} {e : LogError}
    (h : (log.addHandler sink level).2 = .error e) : sink.atLevel? level = none := by
  cases hlevel : Severity.ofName? level with
  | none => rw [Sink.atLevel?, hlevel, Option.map_none]
  | some threshold =>
      rw [addHandler_of_named log sink hlevel] at h
      cases h

def addFile (log : Log) (c : LoggingSettings) : Log × Except LogError Unit :=
  match c.file? with
  | none => (log, .ok ())
  | some (template, level) =>
      match FilePath.ofTemplate log.clock template with
      | .error e => (log, .error (.path e))
      | .ok path => log.addHandler (.file path) level

theorem added_addFile (log : Log) (c : LoggingSettings) :
    Added log (c.fileSink? log.clock).toList (log.addFile c).1 := by
  unfold addFile LoggingSettings.fileSink?
  cases c.file? with
  | none => exact Added.refl log
  | some file =>
      obtain ⟨template, level⟩ := file
      cases hpath : FilePath.ofTemplate log.clock template with
      | error e => simpa [hpath, Except.toOption] using Added.refl log
      | ok path => simpa [hpath, Except.toOption] using added_addHandler log (.file path) level

theorem fileSink?_eq_none (log : Log) {c : LoggingSettings} {e : LogError}
    (h : (log.addFile c).2 = .error e) : c.fileSink? log.clock = none := by
  unfold addFile at h
  unfold LoggingSettings.fileSink?
  cases hfile : c.file? with
  | none => rfl
  | some file =>
      obtain ⟨template, level⟩ := file
      rw [hfile] at h
      cases hpath : FilePath.ofTemplate log.clock template with
      | error e => simp [hpath, Except.toOption]
      | ok path =>
          simp only [hpath] at h
          simpa [hpath, Except.toOption] using atLevel?_eq_none h

theorem configure_of_enabled (log : Log) {c : LoggingSettings} (h : c.disabled = false) :
    log.configure c
      = match (log.enable c.clearLoggers).addHandler .console
          (Text.upperCase c.consoleLogLevel) with
        | (log, .error e) => (log, .error e)
        | (log, .ok ()) => log.addFile c := by
  simp only [configure, h, Bool.false_eq_true, if_false]
  rcases (log.enable c.clearLoggers).addHandler .console (Text.upperCase c.consoleLogLevel) with
    ⟨next, e | ⟨⟩⟩
  · rfl
  · unfold addFile
    cases c.file? <;> rfl

/-! ## All of them -/

theorem sinks_of_unknown {c : LoggingSettings} (hdisabled : c.disabled = false)
    (hlevel : Severity.ofName? (Text.upperCase c.consoleLogLevel) = none)
    (clock : Calendar.Moment) : c.sinks clock = [] ∧ c.consoleSink? = none := by
  have hconsole : c.consoleSink? = none := by
    rw [LoggingSettings.consoleSink?, Sink.atLevel?, hlevel, Option.map_none]
  rw [LoggingSettings.sinks, hdisabled, hconsole]
  exact ⟨rfl, rfl⟩

theorem sinks_of_named {c : LoggingSettings} {threshold : Severity} (hdisabled : c.disabled = false)
    (hlevel : Severity.ofName? (Text.upperCase c.consoleLogLevel) = some threshold)
    (clock : Calendar.Moment) :
    c.sinks clock = [(.console, threshold)] ++ (c.fileSink? clock).toList
      ∧ c.consoleSink? = some (.console, threshold) := by
  have hconsole : c.consoleSink? = some (.console, threshold) := by
    rw [LoggingSettings.consoleSink?, Sink.atLevel?, hlevel, Option.map_some]
  rw [LoggingSettings.sinks, hdisabled, hconsole]
  exact ⟨rfl, rfl⟩

theorem added_configure (log : Log) {c : LoggingSettings} (hdisabled : c.disabled = false) :
    Added (log.enable c.clearLoggers) (c.sinks log.clock) (log.configure c).1 := by
  rw [configure_of_enabled log hdisabled]
  cases hlevel : Severity.ofName? (Text.upperCase c.consoleLogLevel) with
  | none =>
      rw [addHandler_of_unknown _ _ hlevel, (sinks_of_unknown hdisabled hlevel _).1]
      exact Added.refl _
  | some threshold =>
      rw [addHandler_of_named _ _ hlevel, (sinks_of_named hdisabled hlevel _).1]
      have hconsole : Added (log.enable c.clearLoggers) [(.console, threshold)]
          ((log.enable c.clearLoggers).install .console threshold) := ⟨rfl, rfl, rfl, rfl⟩
      exact hconsole.trans (added_addFile _ c)

/-- What is disabled does not fail, and what fails has no sink for a file. -/
theorem sinks_of_error {log : Log} {c : LoggingSettings} {e : LogError}
    (h : (log.configure c).2 = .error e) :
    c.disabled = false ∧ c.sinks log.clock = c.consoleSink?.toList := by
  cases hdisabled : c.disabled with
  | true =>
      rw [configure, hdisabled, if_pos rfl] at h
      cases h
  | false =>
      refine ⟨rfl, ?_⟩
      rw [configure_of_enabled log hdisabled] at h
      cases hlevel : Severity.ofName? (Text.upperCase c.consoleLogLevel) with
      | none =>
          obtain ⟨hsinks, hconsole⟩ := sinks_of_unknown hdisabled hlevel log.clock
          rw [hsinks, hconsole]
          rfl
      | some threshold =>
          obtain ⟨hsinks, hconsole⟩ := sinks_of_named hdisabled hlevel log.clock
          rw [addHandler_of_named _ _ hlevel] at h
          have hnone : c.fileSink? log.clock = none :=
            fileSink?_eq_none ((log.enable c.clearLoggers).install .console threshold) h
          rw [hsinks, hconsole, hnone]
          rfl

/-- What is left of a log by configuring it, whether or not that fails. -/
structure Configured (log : Log) (c : LoggingSettings) (next : Log) : Prop where
  handlers : next.handlers
    = (if c.clears then [] else log.handlers) ++ numbered log.installed (c.sinks log.clock)
  installed : next.installed = log.installed + (c.sinks log.clock).length
  enabled : next.enabled = !c.disabled
  clock : next.clock = log.clock

theorem configured (log : Log) (c : LoggingSettings) : Configured log c (log.configure c).1 := by
  cases hdisabled : c.disabled with
  | true =>
      rw [configure, hdisabled, if_pos rfl]
      constructor <;> simp [LoggingSettings.clears, LoggingSettings.sinks, numbered, hdisabled]
  | false =>
      obtain ⟨hhandlers, hinstalled, henabled, hclock⟩ := added_configure log hdisabled
      have hclears : c.clears = c.clearLoggers := by simp [LoggingSettings.clears, hdisabled]
      refine ⟨?_, hinstalled, ?_, hclock⟩
      · rw [hhandlers, hclears]
        rfl
      · rw [henabled, hdisabled]
        rfl

end Log
end LoadReport
