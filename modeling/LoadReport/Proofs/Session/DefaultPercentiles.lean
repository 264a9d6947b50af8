import LoadReport.Proofs.Session.InForce
import LoadReport.Proofs.Session.Step
import LoadReport.Proofs.Settings.Loading
import LoadReport.Proofs.Summary.Accounting
import LoadReport.Proofs.Summary.RankOrder

/-!
# The percentiles in force

Percentiles are looked at twice, when they are loaded and when they are reported.
The first look lets nothing pass that the second one drops, so what is in force can
be reported in every state that a session reaches (`reportable_run`).

That is not enough for it to be reported. A fraction that is in range has a rank,
and a rank may lie above the number of samples, but not below 2^52 samples
(`Accounted.resolves`). Up to there each configured percentile makes an entry, its
repeats aside, and the log is silent.
-/

namespace LoadReport

open Percentile

/-! ## What is in force can be reported -/

theorem Event.reportable_of_loaded {event : Event} {settings : Settings}
    (h : event.loaded? = some settings) : settings.Reportable := by
  cases event with
  | reload environment file => exact reportable_of_load (Except.toOption_eq_some_iff.mp h)
  | _ => cases h

theorem Session.reportable_run {s : Session} (h : s.settings.Reportable) (events : List Event) :
    (s.run events).settings.Reportable := by
  rw [settings_run]
  cases hlast : (events.filterMap Event.loaded?).getLast? with
  | none => exact h
  | some settings =>
      obtain ⟨event, -, hloaded⟩ := List.mem_filterMap.mp (List.mem_of_getLast? hlast)
      exact Event.reportable_of_loaded hloaded

/-! ## What can be reported is reported -/

namespace Summary

variable {total : Int} {ps : List Number} {s : Summary}

/-- Up to 2^52 samples every fraction in range resolves. -/
theorem Accounted.resolves (h : Accounted total ps s) (hpopulated : 1 ≤ total)
    (hle : total ≤ 2 ^ 52) {p : Number} (hp : p ∈ ps) (hrange : inRange p = true) :
    Percentile.resolves total p = true := by
  obtain ⟨r, hr⟩ := h.ranked p hp hrange
  obtain ⟨k, rfl⟩ := Int.eq_ofNat_of_zero_le (Int.le_of_lt hpopulated)
  have hk : k ≤ 2 ^ (significantBits - 1) := Int.ofNat_le.mp hle
  have hreached : r ≤ k := rank_le_total hk hrange hr
  rw [resolves_of_rank hrange hr]
  exact decide_eq_true hreached

theorem Accounted.keys_of_resolves (h : Accounted total ps s)
    (hall : ∀ p ∈ ps, Percentile.resolves total p = true) :
    Table.keys s.percentiles = ps.eraseDupsBy Number.same := by
  rw [h.keys, List.filter_eq_self.mpr hall]

theorem filterMap_notice?_of_resolves (hall : ∀ p ∈ ps, Percentile.resolves total p = true) :
    ps.filterMap (notice? total) = [] :=
  List.filterMap_eq_nil_iff.mpr fun p hp => notice?_eq_none (hall p hp)

/-- Fractions in range all make entries, unless they are repeats, and notices are
given of nothing but what was excluded. -/
theorem reported_of_inRange {visits : List Bucket} {exclude : Exclusion}
    {result : Option Summary} (h : (compute visits ps exclude).outcome = .ok result)
    (hrange : ∀ p ∈ ps, inRange p = true)
    (hpopulated : 1 ≤ Bucket.total (retained exclude visits))
    (hle : Bucket.total (retained exclude visits) ≤ 2 ^ 52) :
    ∃ s, result = some s ∧ Table.keys s.percentiles = ps.eraseDupsBy Number.same
      ∧ (compute visits ps exclude).notices = noticeOfExcluded (excluded exclude visits) := by
  obtain ⟨s, rfl, hs⟩ := exists_assembled h hpopulated
  have hpos : ∀ b ∈ retained exclude visits, 0 < b.2 := fun _ hb => count_pos_of_mem_retained hb
  have haccounted := hs.accounted hpos
  have hall : ∀ p ∈ ps, Percentile.resolves (Bucket.total (retained exclude visits)) p = true :=
    fun p hp => haccounted.resolves hpopulated hle hp (hrange p hp)
  refine ⟨s, rfl, haccounted.keys_of_resolves hall, ?_⟩
  rw [notices_compute h, hs.notices_resolve hpos, filterMap_notice?_of_resolves hall,
    List.append_nil]

end Summary

namespace Session

theorem outcome_step_summarize_iff {s : Session} {results : Results}
    {percentiles : Option (List Number)} {reply : Reply} :
    (s.step (.summarize results percentiles)).2.outcome = .ok reply ↔
      ∃ result, reply = .summary result
        ∧ (results.latencySummary s.settings percentiles).outcome = .ok result := by
  simp only [step, compute]
  cases (results.latencySummary s.settings percentiles).outcome with
  | error fault => simp
  | ok result => simp [eq_comm]

/-- **No percentile in force is lost.** Whatever was loaded, or failed to load, the
percentiles in force are numbers between zero and one. Asked for the latencies of
up to 2^52 samples without percentiles of its own, a session reports these, each
once and in the order in which they are configured, and logs nothing. -/
theorem percentiles_inForce (events : List Event) :
    let s := Session.run {} events
    let configured := s.settings.statistics.percentiles.map Number.float
    (∀ p ∈ configured, p.isNan = false ∧ (Number.int 0).le p = true ∧ p.le (.int 1) = true)
      ∧ ∀ (results : Results) (reply : Reply),
        (s.step (.summarize results none)).2.outcome = .ok reply →
        1 ≤ Bucket.total (Summary.retained .nothing results.latencies.visits) →
        Bucket.total (Summary.retained .nothing results.latencies.visits) ≤ 2 ^ 52 →
        ∃ summary, reply = .summary (some summary)
          ∧ Table.keys summary.percentiles = configured.eraseDupsBy Number.same
          ∧ s.records (.summarize results none) = [] := by
  intro s configured
  have hrange : ∀ p ∈ configured, inRange p = true := by
    intro p hp
    obtain ⟨x, hx, rfl⟩ := List.mem_map.mp hp
    exact reportable_run reportable_default events x hx
  refine ⟨fun p hp => ?_, fun results reply h hpopulated hle => ?_⟩
  · exact ⟨isNan_of_inRange (hrange p hp), Bool.and_eq_true_iff.mp (hrange p hp)⟩
  · obtain ⟨result, rfl, hresult⟩ := outcome_step_summarize_iff.mp h
    obtain ⟨summary, rfl, hkeys, hnotices⟩ :=
      Summary.reported_of_inRange hresult hrange hpopulated hle
    refine ⟨summary, rfl, hkeys, ?_⟩
    rw [Summary.excluded_eq_zero fun _ _ => rfl] at hnotices
    exact congrArg (List.map Log.ofNotice) hnotices

/-- One and zero are configured twice, and a later load is refused for a NaN. Of so
many samples as can be, the three fractions left are reported. -/
theorem percentiles_inForce_repeated :
    let loading : Event := .reload
      [("SALVO__STATISTICS__PERCENTILES", "[1, -0.0, 0, 0.5, true]")] ""
    let refused : Event := .reload [("SALVO__STATISTICS__PERCENTILES", "[0.25, NaN]")] ""
    let s := Session.run {} [loading, refused]
    let asking : Event := .summarize { latencies := .listed [(.int 7, 2 ^ 52)] } none
    (∀ p ∈ s.settings.statistics.percentiles.map Number.float, p.isNan = false)
      ∧ ∃ summary, (s.step asking).2.outcome = .ok (.summary (some summary))
        ∧ Table.keys summary.percentiles
          = [.float (.ofInt 1), .float (.zero true), .float .half]
        ∧ s.records asking = [] := by
  intro loading refused s asking
  have hrun : Session.run {} [loading, refused] = s := rfl
  have hloaded : s.settings.statistics.percentiles
      = [.ofInt 1, .zero true, .zero false, .half, .ofInt 1] := by
    decide +kernel
  have hretained : Summary.retained .nothing [(.int 7, 2 ^ 52)] = [(.int 7, 2 ^ 52)] := by
    decide +kernel
  have hsummary : ∃ summary, Summary.ofRetained [(.int 7, 2 ^ 52)]
      ([.ofInt 1, .zero true, .zero false, .half, .ofInt 1].map .float) = .ok (some summary) := by
    refine Summary.exists_summary ?_
    simp only [Summary.ofRetained, Arrangement.arrange_singleton]
    decide +kernel
  obtain ⟨summary, hsummary⟩ := hsummary
  have hreply : (s.step asking).2.outcome = .ok (.summary (some summary)) := by
    refine outcome_step_summarize_iff.mpr ⟨_, rfl, ?_⟩
    rw [Results.latencySummary, Results.fractions, Option.getD_none, hloaded, ← hsummary]
    exact Summary.outcome_nothing (by decide) _
  obtain ⟨hrange, hreported⟩ := percentiles_inForce [loading, refused]
  obtain ⟨t, ht, hkeys, hrecords⟩ := hreported _ _ hreply
    (by rw [Histogram.visits, hretained]; decide) (by rw [Histogram.visits, hretained]; decide)
  obtain rfl := Option.some.inj (Reply.summary.inj ht)
  refine ⟨fun p hp => (hrange p hp).1, summary, hreply, ?_, hrecords⟩
  rw [hkeys, hrun, hloaded]
  decide +kernel

end Session
end LoadReport
