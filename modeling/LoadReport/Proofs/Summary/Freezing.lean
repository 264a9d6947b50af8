import LoadReport.Proofs.Histogram.Entries
import LoadReport.Proofs.Summary.Samples
import LoadReport.Summary.Query

/-!
# Freezing shows what was recorded

A recorder keeps a total beside its table, and a frozen histogram has the
table alone and adds it up. What can be asked of the two is the count under a
key, the total, a traversal with a visitor, and the summaries, and `Shows` says
that the answers are the same.

- **The total** is the only answer that is found in another way. That it agrees
  is not a matter of the table: it is an invariant of recording
  (`Recorder.total_counted`).
- **The copy.** A table that is written entry by entry from another one is that
  table, order included, because recording leaves no two keys that are the same
  (`Recorder.ofPairs_freeze`). The order matters: NaN keys, of which each is
  written for itself, are traversed in it.
-/

namespace LoadReport

open Bucket

/-- A frozen histogram answers whatever it is asked as the recorder does. -/
structure Frozen.Shows (f : Frozen) (r : Recorder) : Prop where
  get_eq : ∀ key, f.get key = r.get key
  total_eq : f.total = r.total
  visits_eq : f.visits = r.visits
  traverse_eq : ∀ {σ : Type} (visitor : σ → Bucket → σ × Bool) (state : σ),
    Histogram.traverse visitor state f.visits = Histogram.traverse visitor state r.visits
  run_eq : ∀ query : Query, query.run (.frozen f) = query.run (.live r)

namespace Recorder

theorem get_freeze (r : Recorder) (key : Number) : r.freeze.get key = r.get key := by
  rw [Frozen.get, freeze, Table.get?_map, get]
  cases Table.get? Number.same key r.buckets <;> rfl

theorem run_freeze (r : Recorder) (query : Query) :
    query.run (.frozen r.freeze) = query.run (.live r) := by
  cases query <;> rfl

theorem shows_freeze (calls : List Bucket) :
    (ofCalls calls).freeze.Shows (ofCalls calls) where
  get_eq := get_freeze _
  total_eq := total_counted calls
  visits_eq := visits_freeze _
  traverse_eq _ _ := by rw [visits_freeze]
  run_eq := run_freeze _

theorem ofPairs_freeze (calls : List Bucket) :
    Frozen.ofPairs (ofCalls calls).freeze.buckets = (ofCalls calls).freeze := by
  have hdistinct : Table.Distinct Number.same (ofCalls calls).freeze.buckets :=
    List.pairwise_map.mpr (Histogram.keyed_freeze calls).distinct
  rw [Frozen.ofPairs, Table.ofPairs_of_distinct hdistinct]

end Recorder

namespace Summary

/-- With nothing excluded and no negative counts, all samples are retained. -/
theorem total_retained_nothing {visits : List Bucket} (hnonneg : ∀ b ∈ visits, 0 ≤ b.2) :
    total (retained .nothing visits) = total visits := by
  have hweigh : weigh (fun _ => 1) (retained .nothing visits)
      = weigh (fun k => indicator (fun _ => true) k * 1) visits :=
    weigh_retained _ hnonneg fun _ _ => rfl
  rw [← weigh_one, ← weigh_one, hweigh]
  rfl

theorem ofLatencies_eq_none_iff {h : Histogram} (hnonneg : ∀ b ∈ h.visits, 0 ≤ b.2)
    (ps : List Number) : (ofLatencies h ps).outcome = .ok none ↔ total h.visits = 0 := by
  have hpos := total_nonneg hnonneg
  have hnotice : noticeable (excluded .nothing h.visits) = .ok () := by
    rw [excluded_eq_zero fun _ _ => rfl]
    rfl
  rw [ofLatencies, outcome_eq_ofRetained (fun _ _ => ⟨_, rfl⟩) hnotice, ofRetained_eq_ok_none_iff,
    total_retained_nothing hnonneg]
  omega

end Summary

namespace Recorder

/-- **A frozen histogram is the live one, for all that can be asked.** After any
run of calls the frozen counts, and a copy of them, answer as the recorder does,
and latencies have no summary just if the total is zero. -/
theorem frozen_shows_live (calls : List Bucket) :
    (ofCalls calls).freeze.Shows (ofCalls calls)
      ∧ (Frozen.ofPairs (ofCalls calls).freeze.buckets).Shows (ofCalls calls)
      ∧ ∀ ps, (Summary.ofLatencies (.live (ofCalls calls)) ps).outcome = .ok none ↔
          (ofCalls calls).total = 0 := by
  refine ⟨shows_freeze calls, ?_, fun ps => ?_⟩
  · rw [ofPairs_freeze]
    exact shows_freeze calls
  · have hnone := Summary.ofLatencies_eq_none_iff (h := .live (ofCalls calls))
      (fun _ hb => count_nonneg_of_mem_visits hb) ps
    rw [hnone, Histogram.visits, total_visits]
    exact Int.natCast_eq_zero

end Recorder
end LoadReport
