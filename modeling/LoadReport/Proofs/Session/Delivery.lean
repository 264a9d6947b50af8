import LoadReport.Proofs.Session.Step

/-!
# Which messages reach which sinks

A sink is installed by one event and a message is logged during a later one.
Whether the message reaches the sink is decided by three things: the
configurations in between, which may have removed the sink; the severity; and
for a message of the library the last configuration so far, which lets it
through or not. `Reaches` says this of the configurations as they were asked for,
and does not ask whether they failed.

`received_of_installed` is the law. It does not count deliveries but gives what a
sink receives, message by message: what reaches it, in the order in which it was
logged, and nothing twice.
-/

namespace LoadReport
namespace Session

/-! ## Sinks put in place -/

def installs (s : Session) (event : Event) : List Handler :=
  (s.step event).1.log.handlers.filter fun h => decide (h ∉ s.log.handlers)

theorem installs_eq {s : Session} (hserial : s.log.Serial) (event : Event) :
    s.installs event = Log.numbered s.log.installed (s.sinks event) := by
  rw [installs, (stepped s event).handlers, List.filter_append]
  have hold : ((if (s.configuration? event).any (·.clears) then [] else s.log.handlers).filter
      fun h => decide (h ∉ s.log.handlers)) = [] := by
    split <;> simp
  have hnew : ∀ h ∈ Log.numbered s.log.installed (s.sinks event),
      decide (h ∉ s.log.handlers) = true := by
    intro h hmem
    rw [decide_eq_true_eq]
    exact fun hold => Log.not_mem_numbered (hserial.lt_installed h hold) hmem
  rw [hold, List.nil_append, List.filter_eq_self.mpr hnew]

/-- When a message reaches a sink, given the configurations since the sink was
installed and all so far. -/
def Reaches (h : Handler) (since sofar : List LoggingSettings) (r : Record) : Prop :=
  (∀ c ∈ since, ¬ (c.disabled = false ∧ c.clearLoggers = true))
    ∧ h.threshold.weight ≤ r.severity.weight
    ∧ (r.origin = .host ∨ r.origin = .library ∧ ∃ c ∈ sofar.getLast?, c.disabled = false)

instance (h : Handler) (since sofar : List LoggingSettings) (r : Record) :
    Decidable (Reaches h since sofar r) := by
  unfold Reaches
  infer_instance

/-- What a log lets through, said of the configurations so far. -/
theorem admits_run_iff {s : Session} (hsilent : s.log.enabled = false) (events : List Event)
    (origin : Origin) :
    (s.run events).log.admits origin = true ↔
      origin = .host ∨ origin = .library ∧
        ∃ c ∈ (s.configurations events).getLast?, c.disabled = false := by
  rw [Log.admits, enabled_run]
  cases origin with
  | host => simp
  | library =>
      cases (s.configurations events).getLast? with
      | none => simp [hsilent]
      | some c => simp

theorem received_run {s : Session} (hserial : s.log.Serial) {h : Handler}
    (hmem : h ∈ s.log.handlers) (between : List Event) (logging : Event) :
    ((s.run between).step logging).2.received h
      = if ∀ c ∈ s.configurations between, c.clears = false then
          ((s.run between).records logging).filter fun r =>
            (s.run between).log.admits r.origin && h.accepts r
        else [] := by
  rw [received_step (serial_run hserial between)]
  have hiff := mem_handlers_run (hserial.lt_installed h hmem) between
  simp only [hiff, hmem, true_and]

/-- A handler that is in place at the start of a run receives what reaches it,
given what the log lets through at the end. -/
theorem received_run_of_admits {s : Session} (hserial : s.log.Serial) {h : Handler}
    (hmem : h ∈ s.log.handlers) (between : List Event) (logging : Event)
    {sofar : List LoggingSettings}
    (hadmits : ∀ origin, (s.run between).log.admits origin = true ↔
      origin = .host ∨ origin = .library ∧ ∃ c ∈ sofar.getLast?, c.disabled = false) :
    ((s.run between).step logging).2.received h
      = ((s.run between).records logging).filter fun r =>
          decide (Reaches h (s.configurations between) sofar r) := by
  rw [received_run hserial hmem]
  split
  · next hkept =>
      refine List.filter_congr fun r _ => ?_
      rw [Bool.eq_iff_iff, Bool.and_eq_true, decide_eq_true_eq, hadmits]
      constructor
      · rintro ⟨hadmitted, haccepts⟩
        exact ⟨fun c hc => LoggingSettings.clears_eq_false_iff.mp (hkept c hc),
          of_decide_eq_true haccepts, hadmitted⟩
      · rintro ⟨-, hsevere, hadmitted⟩
        exact ⟨hadmitted, decide_eq_true hsevere⟩
  · next hcleared =>
      rw [eq_comm, List.filter_eq_nil_iff]
      intro r _ hreaches
      obtain ⟨hkept, -, -⟩ := of_decide_eq_true hreaches
      exact hcleared fun c hc => LoggingSettings.clears_eq_false_iff.mpr (hkept c hc)

theorem admits_of_mem_deliveries {log : Log} {rs : List Record} {d : Delivery}
    (h : d ∈ rs.flatMap log.deliveries) : log.admits d.record.origin = true := by
  obtain ⟨r, -, hd⟩ := List.mem_flatMap.mp h
  unfold Log.deliveries at hd
  split at hd
  · next hadmits =>
      obtain ⟨_, -, rfl⟩ := List.mem_map.mp hd
      exact hadmits
  · cases hd

/-- **The law of delivery.** In a session that starts without handlers and with
the library silent, the sinks that an event installs are the host's at DEBUG, or
those of a configuration, and each of them receives what reaches it of the
messages of a later event, once and in order. So nothing of the library is
delivered before there was a configuration, and a disabled one makes no
difference to the messages of the host. -/
theorem received_of_installed (start : Settings) (before between : List Event)
    (installing logging : Event) :
    let opened := Session.run { settings := start } before
    let now := opened.run (installing :: between)
    let since := (opened.step installing).1.configurations between
    let sofar := Session.configurations { settings := start } (before ++ installing :: between)
    (opened.installs installing).map (fun h => (h.sink, h.threshold)) = opened.sinks installing
      ∧ (∀ h ∈ opened.installs installing,
        (now.step logging).2.received h
          = (now.records logging).filter fun r => decide (Reaches h since sofar r))
      ∧ (sofar = [] → ∀ d ∈ (now.step logging).2.deliveries, d.record.origin = .host)
      ∧ ∀ settings, (settings.getD opened.settings.logging).disabled = true →
        (((opened.step (.configure settings)).1.run between).step logging).2.fromHost
          = ((opened.run between).step logging).2.fromHost := by
  intro opened now since sofar
  have hserial : opened.log.Serial := serial_run (serial_initial start) before
  have hadmits : ∀ origin, now.log.admits origin = true ↔
      origin = .host ∨ origin = .library ∧ ∃ c ∈ sofar.getLast?, c.disabled = false := by
    intro origin
    have hrun := admits_run_iff (s := { settings := start }) rfl
      (before ++ installing :: between) origin
    rwa [run_append] at hrun
  refine ⟨?_, fun h hinstalled => ?_, fun hnone d hd => ?_, fun settings hdisabled => ?_⟩
  · rw [installs_eq hserial, Log.map_numbered]
  · have hnext := (stepped opened installing).serial hserial
    have hmem : h ∈ (opened.step installing).1.log.handlers := (List.mem_filter.mp hinstalled).1
    exact received_run_of_admits hnext hmem between logging hadmits
  · rw [(stepped now logging).deliveries] at hd
    rcases (hadmits _).mp (admits_of_mem_deliveries hd) with hhost | ⟨-, c, hc, -⟩
    · exact hhost
    · rw [hnone] at hc
      cases hc
  · exact ((hostAlike_of_disabled hdisabled).run between).fromHost_eq logging

/-- A configuration that fails at the level of the console lets the library
through all the same, and the host's sink receives its notice. Before that it
does not, and a disabled configuration leaves the host's messages alone. -/
theorem received_of_installed_failing :
    let silent := Session.run {} [.addHost]
    let failing : Event := .configure (some { clearLoggers := false, consoleLogLevel := "LOUD" })
    let disabling : Event := .configure (some { disabled := true })
    let asking : Event := .query (.latencies []) (.listed [])
    let host : Handler := ⟨0, .host, .debug⟩
    host ∈ Session.installs {} .addHost
      ∧ ((Session.run {} [.addHost, failing]).step asking).2.received host
        = [⟨.library, .debug, "Histogram holds no samples, no statistics available yet"⟩]
      ∧ (∀ d ∈ (silent.step asking).2.deliveries, d.record.origin = .host)
      ∧ ((silent.step disabling).1.step (.emit "INFO" "hello")).2.fromHost
        = (silent.step (.emit "INFO" "hello")).2.fromHost := by
  intro silent failing disabling asking host
  have hmem : host ∈ Session.installs {} .addHost := by decide +kernel
  obtain ⟨-, hreceived, -, -⟩ := received_of_installed {} [] [failing] .addHost asking
  have hreached : ((Session.run {} [.addHost, failing]).records asking).filter (fun r =>
        decide (Reaches host ((Session.step {} .addHost).1.configurations [failing])
          (Session.configurations {} [.addHost, failing]) r))
      = [⟨.library, .debug, "Histogram holds no samples, no statistics available yet"⟩] := by
    decide +kernel
  rw [← hreached]
  obtain ⟨-, -, hsilent, -⟩ := received_of_installed {} [] [] .addHost asking
  obtain ⟨-, -, -, hdisabled⟩ :=
    received_of_installed {} [.addHost] [] .inspect (.emit "INFO" "hello")
  refine ⟨hmem, ?_, hsilent rfl, hdisabled (some { disabled := true }) rfl⟩
  exact hreceived host hmem

end Session
end LoadReport
