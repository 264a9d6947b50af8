import LoadReport.Proofs.Summary.Arrangement
import LoadReport.Proofs.Summary.Exclusion
import LoadReport.Results

/-!
# The report does not show how its figures were collected

Errors, status codes and the two histograms are collections, and a report puts
each of them into an order of its own. That order leaves no choice:

- errors by falling count, those of one count by message, is a linear order on
  errors as data (`ErrorCount.listedBefore_antisymm`), so equal errors are the
  only ones that may change places;
- status codes are keys of a table, so the codes alone settle their order. The
  order by code is not antisymmetric on entries, and without distinct codes
  entries would show in order of entry (`Results.sortedCodes_eq`);
- a summary depends on the traversal of its histogram alone. Away from NaN
  that is the same for any order of entry, and the exclusion of a throughput
  summary takes NaN out.

So reports of the same figures are not merely alike: the computations are
equal, with their notices and faults (`report_eq_of_rearranged`).
-/

namespace LoadReport

open Bucket

/-! ## The order of errors -/

namespace ErrorCount

theorem listedBefore_iff {a b : ErrorCount} :
    a.listedBefore b = true ↔ b.count < a.count ∨ a.count = b.count ∧ a.error ≤ b.error := by
  unfold listedBefore
  split
  · next heq =>
      rw [Bool.not_eq_true', decide_eq_false_iff_not]
      constructor
      · exact fun hle => Or.inr ⟨heq, String.not_lt.mp hle⟩
      · rintro (hlt | ⟨-, hle⟩)
        · omega
        · exact String.not_lt.mpr hle
  · next hne =>
      rw [decide_eq_true_eq]
      constructor
      · exact Or.inl
      · rintro (hlt | ⟨heq, -⟩)
        · exact hlt
        · exact absurd heq hne

theorem listedBefore_total (a b : ErrorCount) :
    (a.listedBefore b || b.listedBefore a) = true := by
  rw [Bool.or_eq_true, listedBefore_iff, listedBefore_iff]
  rcases Int.lt_trichotomy a.count b.count with hlt | heq | hgt
  · exact Or.inr (Or.inl hlt)
  · rcases String.le_total a.error b.error with hle | hle
    · exact Or.inl (Or.inr ⟨heq, hle⟩)
    · exact Or.inr (Or.inr ⟨heq.symm, hle⟩)
  · exact Or.inl (Or.inl hgt)

theorem listedBefore_trans (a b c : ErrorCount) (hab : a.listedBefore b = true)
    (hbc : b.listedBefore c = true) : a.listedBefore c = true := by
  rw [listedBefore_iff] at *
  rcases hab with hab | ⟨hab, hle⟩
  · left
    rcases hbc with hbc | ⟨hbc, -⟩ <;> omega
  · rcases hbc with hbc | ⟨hbc, hle'⟩
    · left
      omega
    · exact Or.inr ⟨hab.trans hbc, String.le_trans hle hle'⟩

theorem listedBefore_antisymm {a b : ErrorCount} (hab : a.listedBefore b = true)
    (hba : b.listedBefore a = true) : a = b := by
  rw [listedBefore_iff] at hab hba
  obtain ⟨error, count⟩ := a
  obtain ⟨error', count'⟩ := b
  rcases hab with hab | ⟨heq, hle⟩
  · rcases hba with hba | ⟨heq, -⟩ <;> simp only at * <;> omega
  · rcases hba with hba | ⟨-, hle'⟩
    · simp only at *
      omega
    · obtain rfl := String.le_antisymm hle hle'
      obtain rfl : count = count' := heq
      rfl

end ErrorCount

namespace Results

variable {r r' : Results}

theorem pairwise_sortedErrors (r : Results) :
    r.sortedErrors.Pairwise fun a b => a.listedBefore b = true :=
  List.pairwise_mergeSort ErrorCount.listedBefore_trans ErrorCount.listedBefore_total r.errors

theorem sortedErrors_eq (h : r.errors.Perm r'.errors) : r.sortedErrors = r'.sortedErrors := by
  have hperm := r.sortedErrors_perm.trans (h.trans r'.sortedErrors_perm.symm)
  exact hperm.eq_of_pairwise (fun _ _ _ _ => ErrorCount.listedBefore_antisymm)
    r.pairwise_sortedErrors r'.pairwise_sortedErrors

/-! ## The order of codes -/

/-- Codes ascend strictly, since no code has two entries. -/
theorem pairwise_sortedCodes (h : Table.Distinct (· == ·) r.statusCodes) :
    r.sortedCodes.Pairwise fun a b => a.1 < b.1 := by
  have hdistinct : r.statusCodes.Pairwise fun a b => a.1 ≠ b.1 :=
    (List.pairwise_map.mp h).imp fun hab => by simpa using hab
  have hle : r.sortedCodes.Pairwise fun a b => decide (a.1 ≤ b.1) = true := by
    refine List.pairwise_mergeSort (fun a b c hab hbc => ?_) (fun a b => ?_) r.statusCodes
    · simp only [decide_eq_true_eq] at *
      omega
    · simp only [Bool.or_eq_true, decide_eq_true_eq]
      omega
  have hne := hdistinct.perm r.sortedCodes_perm.symm fun hab => hab.symm
  refine (hle.and hne).imp fun ⟨hab, hdiff⟩ => ?_
  have := of_decide_eq_true hab
  omega

theorem sortedCodes_eq (hdistinct : Table.Distinct (· == ·) r.statusCodes)
    (h : r.statusCodes.Perm r'.statusCodes) : r.sortedCodes = r'.sortedCodes := by
  have hdistinct' : Table.Distinct (· == ·) r'.statusCodes :=
    hdistinct.perm (h.map _) fun hab => beq_eq_false_iff_ne.mpr (beq_eq_false_iff_ne.mp hab).symm
  have hperm := r.sortedCodes_perm.trans (h.trans r'.sortedCodes_perm.symm)
  refine hperm.eq_of_pairwise (fun a b _ _ hab hba => ?_) (pairwise_sortedCodes hdistinct)
    (pairwise_sortedCodes hdistinct')
  omega

/-- An entry is listed if it is what a look-up of its code gives. -/
theorem mem_sortedCodes_iff (h : Table.Distinct (· == ·) r.statusCodes) {code count : Int} :
    (code, count) ∈ r.sortedCodes ↔ Table.get? (· == ·) code r.statusCodes = some count := by
  have hheld : ((r.statusCodes.filter fun entry => entry.1 == code).map (·.2))
      = (Table.get? (· == ·) code r.statusCodes).toList := by
    refine Table.filter_same_of_distinct ?_ ?_ h code
    · exact BEq.symm
    · exact BEq.trans
  rw [r.sortedCodes_perm.mem_iff, ← Option.mem_toList, ← hheld]
  constructor
  · intro hmem
    exact List.mem_map.mpr ⟨(code, count), List.mem_filter.mpr ⟨hmem, by simp⟩, rfl⟩
  · intro hmem
    obtain ⟨⟨code', count'⟩, hfound, rfl⟩ := List.mem_map.mp hmem
    obtain ⟨hentry, hcode⟩ := List.mem_filter.mp hfound
    obtain rfl : code' = code := by simpa using hcode
    exact hentry

end Results

/-! ## The summaries -/

namespace Summary

variable {h h' : Histogram}

theorem ofLatencies_eq (hsame : h.SameEntries h') (hnan : ∀ b ∈ h.entries, b.1.isNan = false)
    (ps : List Number) : ofLatencies h ps = ofLatencies h' ps := by
  unfold ofLatencies
  rw [hsame.visits_eq hnan]

/-- NaN is not retained, so the retained buckets are those of a traversal
without it. -/
theorem retained_nonFinite_filter (visits : List Bucket) :
    retained .nonFinite (visits.filter fun b => !b.1.isNan) = retained .nonFinite visits := by
  unfold retained
  rw [List.filter_filter]
  refine List.filter_congr fun b _ => ?_
  obtain ⟨key, count⟩ := b
  cases key with
  | int n => simp [Number.isNan]
  | float x => cases x <;> simp [Number.isNan, Binary64.isNan, admits, Exclusion.nonFinite,
      Number.toBinary64, Binary64.isFinite, Except.map]

theorem ofThroughput_eq (hsame : h.SameEntries h') (ps : List Number) :
    ofThroughput h ps = ofThroughput h' ps := by
  have hperm : h.visits.Perm h'.visits :=
    h.visits_perm.trans (hsame.perm.trans h'.visits_perm.symm)
  have hkeep : keep .nonFinite h.visits = keep .nonFinite h'.visits := by
    refine keep_nonFinite_congr ⟨fun hall b hb => ?_, fun hall b hb => ?_⟩ ?_
      (countWhere_perm hperm)
    · exact hall b (hperm.symm.subset hb)
    · exact hall b (hperm.subset hb)
    · rw [← retained_nonFinite_filter, hsame.filter_visits, retained_nonFinite_filter]
  unfold ofThroughput compute
  rw [hkeep]

end Summary

namespace Results

variable {r r' : Results}

/-! ## The report -/

/-- The same figures, collected in different orders. The code table and both
histograms are tables in which no key stands twice. -/
structure Rearranged (r r' : Results) : Prop where
  bytesRead : r.bytesRead = r'.bytesRead
  bytesWritten : r.bytesWritten = r'.bytesWritten
  timeTaken : r.timeTaken = r'.timeTaken
  tally : r.tally = r'.tally
  codes_distinct : Table.Distinct (· == ·) r.statusCodes
  statusCodes : r.statusCodes.Perm r'.statusCodes
  errors : r.errors.Perm r'.errors
  latencies : r.latencies.SameEntries r'.latencies
  requests : r.requests.SameEntries r'.requests

theorem Rearranged.report_eq (h : Rearranged r r')
    (hnan : ∀ b ∈ r.latencies.entries, b.1.isNan = false) (settings : Settings)
    (ps : Option (List Number)) : r.report settings ps = r'.report settings ps := by
  have hcodes := sortedCodes_eq h.codes_distinct h.statusCodes
  unfold report latencySummary throughputSummary listedCodes
  rw [Summary.ofLatencies_eq h.latencies hnan, Summary.ofThroughput_eq h.requests, h.bytesRead,
    h.bytesWritten, h.timeTaken, h.tally, hcodes, sortedErrors_eq h.errors]

theorem listedCodes_eq_ok_iff {codes : List (Int × Int)} :
    r.listedCodes = .ok codes ↔
      (∀ entry ∈ r.sortedCodes, (Number.int entry.1).isWritable = true)
        ∧ codes = r.sortedCodes := by
  unfold listedCodes
  rw [← List.all_eq_true]
  split
  · next hall => simp [hall, eq_comm]
  · next hlong => simp [hlong]

theorem sorted_of_report {settings : Settings} {ps : Option (List Number)} {report : Report}
    (h : (r.report settings ps).outcome = .ok report) :
    report.errors = r.sortedErrors ∧ report.statusCodes = r.sortedCodes := by
  unfold Results.report at h
  simp only [Noted.outcome_bind, Except.bind_eq_ok_iff] at h
  obtain ⟨latency, -, throughput, -, codes, hcodes, h⟩ := h
  obtain ⟨-, rfl⟩ := listedCodes_eq_ok_iff.mp hcodes
  obtain rfl := Except.ok.inj h
  exact ⟨rfl, rfl⟩

/-- **A report is canonical.** It does not show in which order its figures were
collected. It lists every error as often as the run does, by falling count and
then by message, and every code once, ascending, with its count. -/
theorem report_eq_of_rearranged (h : Rearranged r r')
    (hnan : ∀ b ∈ r.latencies.entries, b.1.isNan = false) (settings : Settings)
    (ps : Option (List Number)) :
    r.report settings ps = r'.report settings ps
      ∧ ∀ report, (r.report settings ps).outcome = .ok report →
        report.errors.Perm r.errors
          ∧ report.errors.Pairwise (fun a b =>
              b.count < a.count ∨ a.count = b.count ∧ a.error ≤ b.error)
          ∧ report.statusCodes.Pairwise (fun a b => a.1 < b.1)
          ∧ ∀ code count, (code, count) ∈ report.statusCodes ↔
              Table.get? (· == ·) code r.statusCodes = some count := by
  refine ⟨h.report_eq hnan settings ps, fun report hreport => ?_⟩
  obtain ⟨herrors, hcodes⟩ := sorted_of_report hreport
  rw [herrors, hcodes]
  refine ⟨r.sortedErrors_perm, ?_, pairwise_sortedCodes h.codes_distinct,
    fun _ _ => mem_sortedCodes_iff h.codes_distinct⟩
  exact r.pairwise_sortedErrors.imp ErrorCount.listedBefore_iff.mp

/-- Codes, errors and buckets swapped. The errors are equally frequent, the
histograms are frozen on one side only, and one throughput sample is NaN. -/
theorem report_eq_of_rearranged_swapped :
    let refused : ErrorCount := ⟨"refused", 2⟩
    let reset : ErrorCount := ⟨"reset", 2⟩
    let r : Results := {
      statusCodes := [(404, 1), (200, 4)]
      errors := [reset, refused]
      latencies := .frozen (.ofPairs [(.int 10, 2), (.int 30, 0)])
      requests := .frozen (Recorder.ofCalls [(.float .half, 3), (.float .nan, 1)]).freeze }
    let r' : Results := {
      statusCodes := [(200, 4), (404, 1)]
      errors := [refused, reset]
      latencies := .live (.ofCalls [(.int 30, 0), (.int 10, 2)])
      requests := .live (.ofCalls [(.float .nan, 1), (.float .half, 3)]) }
    r.report {} (some [.float .half]) = r'.report {} (some [.float .half])
      ∧ ∃ report, (r.report {} (some [.float .half])).outcome = .ok report
          ∧ report.statusCodes.Pairwise fun a b => a.1 < b.1 := by
  intro refused reset r r'
  have h : Rearranged r r' := {
    bytesRead := rfl
    bytesWritten := rfl
    timeTaken := rfl
    tally := rfl
    codes_distinct := by simp [r, Table.Distinct, Table.keys]
    statusCodes := .swap _ _ _
    errors := .swap _ _ _
    latencies := ⟨Histogram.keyed_ofPairs _, rfl, by decide +kernel⟩
    requests := ⟨Histogram.keyed_freeze _, rfl, by decide +kernel⟩ }
  obtain ⟨heq, hlisted⟩ := report_eq_of_rearranged h (by decide +kernel) {} (some [.float .half])
  -- The buckets of `r` were entered as they are traversed, and one of each
  -- histogram is retained: nothing is left to sort.
  have hlatencies : r.latencies.visits = [(.int 10, 2), (.int 30, 0)] := by
    have hentries : r.latencies.entries = [(.int 10, 2), (.int 30, 0)] := by decide +kernel
    rw [Histogram.visits_of_isTable rfl, hentries]
    exact List.mergeSort_of_pairwise (by decide +kernel)
  have hrequests : r.requests.visits = [(.float .half, 3), (.float .nan, 1)] := by
    have hentries : r.requests.entries = [(.float .half, 3), (.float .nan, 1)] := by
      decide +kernel
    rw [Histogram.visits_of_isTable rfl, hentries]
    exact List.mergeSort_of_pairwise (by decide +kernel)
  have hlatency : ∃ s, (r.latencySummary {} (some [.float .half])).outcome = .ok (some s) := by
    refine Summary.exists_summary ?_
    have hretained : Summary.retained .nothing [(.int 10, 2), (.int 30, 0)] = [(.int 10, 2)] := by
      decide
    rw [latencySummary, Summary.ofLatencies, hlatencies,
      Summary.outcome_eq_ofRetained (fun _ _ => ⟨_, rfl⟩) (by decide +kernel), hretained]
    simp only [Summary.ofRetained, Arrangement.arrange_singleton]
    decide +kernel
  have hthroughput :
      ∃ s, (r.throughputSummary {} (some [.float .half])).outcome = .ok (some s) := by
    refine Summary.exists_summary ?_
    have hretained : Summary.retained .nonFinite [(.float .half, 3), (.float .nan, 1)]
        = [(.float .half, 3)] := by decide +kernel
    rw [throughputSummary, Summary.ofThroughput, hrequests,
      Summary.outcome_eq_ofRetained (Summary.decided_nonFinite (by decide +kernel))
        (by decide +kernel), hretained]
    simp only [Summary.ofRetained, Arrangement.arrange_singleton]
    decide +kernel
  obtain ⟨latency, hlatency⟩ := hlatency
  obtain ⟨throughput, hthroughput⟩ := hthroughput
  have hreport : ∃ report, (r.report {} (some [.float .half])).outcome = .ok report := by
    have hwritable : ∀ entry ∈ r.sortedCodes, (Number.int entry.1).isWritable = true := by
      intro entry hentry
      have hcode := r.sortedCodes_perm.subset hentry
      rcases List.mem_pair.mp hcode with rfl | rfl <;> decide +kernel
    simp only [report, Noted.outcome_bind, hlatency, hthroughput, Noted.lift_outcome,
      listedCodes_eq_ok_iff.mpr ⟨hwritable, rfl⟩]
    exact ⟨_, rfl⟩
  obtain ⟨report, hreport⟩ := hreport
  exact ⟨heq, report, hreport, (hlisted report hreport).2.2.1⟩

end Results
end LoadReport
