import Mathlib.Data.List.Nodup
import LoadReport.Proofs.Log.Configuration
import LoadReport.Proofs.Session.InForce

/-!
# What an event does to the log

Whatever happens in a session, the log changes in few ways. `Stepped` lists them
for one event, and `stepped` is the only proof that goes through the kinds of
events; all else is said of `Stepped` and carried over runs by induction.

- **Handlers.** An event adds what `sinks` says, and takes away either nothing or
  everything, the latter if it is a configuration that clears. So a handler is
  in place just if no such configuration came since (`mem_handlers_run`). It is
  not enough for this that handlers are added and removed: one that was removed
  must not come back, which is what serials are for.
- **What is let through** is a matter of the last configuration alone
  (`enabled_run`), failed ones included.
- **Messages.** The handlers in place are given what they accept
  (`received_step`), each of them once.

The host sees neither what is let through of the library nor the files, and
sessions that agree in all else give it the same messages (`HostAlike`).
-/

namespace LoadReport

/-- The records that a handler is given in response to an event. -/
def Response.received (r : Response) (h : Handler) : List Record :=
  (r.deliveries.filter fun d => decide (d.handler = h)).map (·.record)

/-- The deliveries of messages of the host program. -/
def Response.fromHost (r : Response) : List Delivery :=
  r.deliveries.filter fun d => decide (d.record.origin = .host)

namespace Session

/-! ## What an event asks for -/

def configuration? (s : Session) : Event → Option LoggingSettings
  | .configure settings => some (settings.getD s.settings.logging)
  | _ => none

def sinks (s : Session) : Event → List (Sink × Severity)
  | .addHost => [(.host, .debug)]
  | .configure settings => (settings.getD s.settings.logging).sinks s.log.clock
  | _ => []

/-- The records of the messages that are logged during an event. -/
def records (s : Session) : Event → List Record
  | .emit level message =>
      match Severity.ofName? level with
      | some severity => [{ origin := .host, severity, message }]
      | none => []
  | .query query histogram => (query.run histogram).notices.map Log.ofNotice
  | .summarize results percentiles =>
      (results.latencySummary s.settings percentiles).notices.map Log.ofNotice
  | _ => []

/-- The configurations of a run, in order. -/
def configurations : Session → List Event → List LoggingSettings
  | _, [] => []
  | s, event :: events => (s.configuration? event).toList ++ configurations (s.step event).1 events

/-! ## One step -/

structure Stepped (s : Session) (event : Event) : Prop where
  handlers : (s.step event).1.log.handlers
    = (if (s.configuration? event).any (·.clears) then [] else s.log.handlers)
      ++ Log.numbered s.log.installed (s.sinks event)
  installed : (s.step event).1.log.installed = s.log.installed + (s.sinks event).length
  enabled : (s.step event).1.log.enabled
    = match s.configuration? event with
      | some c => !c.disabled
      | none => s.log.enabled
  clock : (s.step event).1.log.clock = s.log.clock
  deliveries : (s.step event).2.deliveries = (s.records event).flatMap s.log.deliveries

/-- An event that has nothing to do with handlers only writes to the log. -/
theorem Stepped.of_kept {s : Session} {event : Event}
    (hconfiguration : s.configuration? event = none)
    (hsinks : s.sinks event = [])
    (hlog : ∃ ds, (s.step event).1.log = s.log.write ds)
    (hdeliveries : (s.step event).2.deliveries = (s.records event).flatMap s.log.deliveries) :
    s.Stepped event := by
  obtain ⟨ds, hlog⟩ := hlog
  refine ⟨?_, ?_, ?_, ?_, hdeliveries⟩
  · rw [hlog, hconfiguration, hsinks]
    exact (List.append_nil _).symm
  · rw [hlog, hsinks]
    rfl
  · rw [hlog, hconfiguration]
    rfl
  · rw [hlog]
    rfl

/-- Without handlers nobody looks at the level, and nobody is given the message. -/
theorem stepped_emit (s : Session) (level message : String) : s.Stepped (.emit level message) := by
  cases hempty : s.log.handlers.isEmpty with
  | true =>
      have hnobody : ∀ r, s.log.deliveries r = [] := by
        intro r
        simp [Log.deliveries, List.isEmpty_iff.mp hempty]
      refine Stepped.of_kept rfl rfl ⟨[], ?_⟩ ?_
      · simp only [step, Log.emit, hempty, if_true]
        rfl
      · simp [step, Log.emit, hempty, hnobody]
  | false =>
      cases hlevel : Severity.ofName? level with
      | none =>
          refine Stepped.of_kept rfl rfl ⟨[], ?_⟩ ?_
          · simp only [step, Log.emit, hempty, Severity.named, hlevel]
            rfl
          · simp [step, Log.emit, hempty, Severity.named, hlevel, records]
      | some severity =>
          refine Stepped.of_kept rfl rfl
            ⟨[⟨.host, severity, message⟩].flatMap s.log.deliveries, ?_⟩ ?_
          · simp only [step, Log.emit, hempty, Severity.named, hlevel]
            rfl
          · simp [step, Log.emit, hempty, Severity.named, hlevel, records, Log.record]

theorem stepped (s : Session) (event : Event) : s.Stepped event := by
  cases event with
  | reload environment file =>
      refine Stepped.of_kept rfl rfl ⟨[], ?_⟩ ?_
      · simp only [step, reload]
        cases Settings.load environment file <;> rfl
      · simp only [step, reload]
        cases Settings.load environment file <;> rfl
  | inspect => exact Stepped.of_kept rfl rfl ⟨[], rfl⟩ rfl
  | addHost => exact ⟨rfl, rfl, rfl, rfl, rfl⟩
  | configure settings =>
      have h := Log.configured s.log (settings.getD s.settings.logging)
      exact ⟨h.handlers, h.installed, h.enabled, h.clock, rfl⟩
  | emit level message => exact stepped_emit s level message
  | query query histogram => exact Stepped.of_kept rfl rfl ⟨_, rfl⟩ rfl
  | summarize results percentiles => exact Stepped.of_kept rfl rfl ⟨_, rfl⟩ rfl

/-! ## What a run keeps -/

theorem Stepped.serial {s : Session} {event : Event} (h : s.Stepped event)
    (hserial : s.log.Serial) : (s.step event).1.log.Serial := by
  refine hserial.of_append ?_ h.handlers h.installed
  split
  · exact List.nil_sublist _
  · exact List.Sublist.refl _

theorem serial_initial (start : Settings) : ({ settings := start } : Session).log.Serial where
  ascending := List.Pairwise.nil
  lt_installed _ h := (List.not_mem_nil h).elim

theorem serial_run {s : Session} (hserial : s.log.Serial) (events : List Event) :
    (s.run events).log.Serial := by
  induction events generalizing s with
  | nil => exact hserial
  | cons event events ih => exact ih ((stepped s event).serial hserial)

/-- A handler that was in place still is, unless a configuration cleared the
handlers. One that was removed does not come back. -/
theorem mem_handlers_run {s : Session} {h : Handler} (hold : h.serial < s.log.installed)
    (events : List Event) :
    h ∈ (s.run events).log.handlers ↔
      h ∈ s.log.handlers ∧ ∀ c ∈ s.configurations events, c.clears = false := by
  induction events generalizing s with
  | nil => simp [configurations]
  | cons event events ih =>
      have hstep := stepped s event
      have hnew : h ∉ Log.numbered s.log.installed (s.sinks event) := Log.not_mem_numbered hold
      have hlt : h.serial < (s.step event).1.log.installed := by
        rw [hstep.installed]
        omega
      rw [run_cons, ih hlt, hstep.handlers, configurations, List.forall_mem_append]
      cases hc : s.configuration? event with
      | none => simp [hnew]
      | some c => cases hclears : c.clears <;> simp [hnew, hclears]

theorem enabled_run (s : Session) (events : List Event) :
    (s.run events).log.enabled
      = match (s.configurations events).getLast? with
        | some c => !c.disabled
        | none => s.log.enabled := by
  induction events generalizing s with
  | nil => rfl
  | cons event events ih =>
      rw [run_cons, ih, (stepped s event).enabled, configurations]
      cases s.configuration? event with
      | none => rfl
      | some c =>
        cases h : (configurations (s.step event).1 events).getLast? <;>
          simp_all [List.getLast?_cons]

/-! ## Messages -/

theorem received_record {log : Log} (hnodup : log.handlers.Nodup) (h : Handler) (r : Record) :
    ((log.deliveries r).filter fun d => decide (d.handler = h)).map (·.record)
      = if h ∈ log.handlers ∧ (log.admits r.origin && h.accepts r) = true then [r] else [] := by
  unfold Log.deliveries
  cases log.admits r.origin with
  | false => simp
  | true =>
      have honce : (log.handlers.filter fun h => h.accepts r).filter (fun h' => decide (h' = h))
          = if h ∈ log.handlers ∧ h.accepts r = true then [h] else [] := by
        rw [List.filter_eq, (hnodup.filter _).count]
        simp only [List.mem_filter]
        split <;> rfl
      rw [if_pos rfl, List.filter_map, List.map_map, Bool.true_and]
      rw [show (fun d : Delivery => decide (d.handler = h)) ∘ (fun h' => Delivery.mk h' r)
        = fun h' => decide (h' = h) from rfl, honce]
      split <;> rfl

theorem received_step {s : Session} (hserial : s.log.Serial) (event : Event) (h : Handler) :
    (s.step event).2.received h
      = if h ∈ s.log.handlers then
          (s.records event).filter fun r => s.log.admits r.origin && h.accepts r
        else [] := by
  rw [Response.received, (stepped s event).deliveries]
  induction s.records event with
  | nil => simp
  | cons r rs ih =>
      rw [List.flatMap_cons, List.filter_append, List.map_append, ih,
        received_record hserial.nodup]
      by_cases hmem : h ∈ s.log.handlers <;>
        cases hpass : s.log.admits r.origin && h.accepts r <;> simp [hmem, hpass]

/-! ## What the host can tell -/

/-- Sessions that differ only in their files and in what is let through of the
library. -/
structure HostAlike (s s' : Session) : Prop where
  settings : s.settings = s'.settings
  handlers : s.log.handlers = s'.log.handlers
  installed : s.log.installed = s'.log.installed
  clock : s.log.clock = s'.log.clock

theorem settings_step_congr {s s' : Session} (h : s.settings = s'.settings) (event : Event) :
    (s.step event).1.settings = (s'.step event).1.settings := by
  rw [settings_step, settings_step, h]

theorem configuration?_congr {s s' : Session} (h : s.settings = s'.settings) (event : Event) :
    s.configuration? event = s'.configuration? event := by
  cases event <;> simp only [configuration?, h]

theorem configurations_congr {s s' : Session} (h : s.settings = s'.settings)
    (events : List Event) : s.configurations events = s'.configurations events := by
  induction events generalizing s s' with
  | nil => rfl
  | cons event events ih =>
      rw [configurations, configurations, configuration?_congr h, ih (settings_step_congr h event)]

theorem records_congr {s s' : Session} (h : s.settings = s'.settings) (event : Event) :
    s.records event = s'.records event := by
  cases event <;> simp only [records, h]

theorem hostAlike_of_disabled {s : Session} {settings : Option LoggingSettings}
    (h : (settings.getD s.settings.logging).disabled = true) :
    HostAlike (s.step (.configure settings)).1 s := by
  constructor <;> simp [Session.step, Log.configure, h]

theorem HostAlike.step {s s' : Session} (h : HostAlike s s') (event : Event) :
    HostAlike (s.step event).1 (s'.step event).1 := by
  have hconfiguration := configuration?_congr h.settings event
  have hsinks : s.sinks event = s'.sinks event := by
    cases event <;> simp only [sinks, h.settings, h.clock]
  refine ⟨settings_step_congr h.settings event, ?_, ?_, ?_⟩
  · rw [(stepped s event).handlers, (stepped s' event).handlers, hconfiguration, hsinks,
      h.handlers, h.installed]
  · rw [(stepped s event).installed, (stepped s' event).installed, hsinks, h.installed]
  · rw [(stepped s event).clock, (stepped s' event).clock, h.clock]

theorem HostAlike.run {s s' : Session} (h : HostAlike s s') (events : List Event) :
    HostAlike (s.run events) (s'.run events) := by
  induction events generalizing s s' with
  | nil => exact h
  | cons event events ih => exact ih (h.step event)

theorem fromHost_record (log : Log) (r : Record) :
    (log.deliveries r).filter (fun d => decide (d.record.origin = .host))
      = if r.origin = .host then
          (log.handlers.filter fun h => h.accepts r).map fun h => { handler := h, record := r }
        else [] := by
  unfold Log.deliveries Log.admits
  cases horigin : r.origin with
  | host => simp [List.filter_map, Function.comp_def, horigin]
  | library => cases log.enabled <;> simp [List.filter_map, Function.comp_def, horigin]

theorem HostAlike.fromHost_eq {s s' : Session} (h : HostAlike s s') (event : Event) :
    (s.step event).2.fromHost = (s'.step event).2.fromHost := by
  rw [Response.fromHost, Response.fromHost, (stepped s event).deliveries,
    (stepped s' event).deliveries, records_congr h.settings]
  rw [List.filter_flatMap, List.filter_flatMap]
  simp only [fromHost_record, h.handlers]

end Session
end LoadReport
