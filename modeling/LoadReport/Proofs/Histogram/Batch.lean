import LoadReport.Proofs.Histogram.Recording
import LoadReport.Proofs.Histogram.Samples

/-!
# Recording in one batch

A recorder of a list of samples is made in two passes: the samples are counted
first, and then each key is recorded once with its count. Recording the samples
one by one interleaves the two. The outcome is the same recorder, in every
field, and `foldlM_add_eq_ofSamples` says so.

- **The second pass copies.** Counting leaves no two keys that are the same, so
  each record appends a bucket and never meets an old one
  (`Table.foldl_update_of_distinct`). NaN keys, which are the same as no key,
  are copied one by one as well.
- **The first pass is the table of the run**: recording a sample makes the write
  that counting it makes (`foldl_record_one`).

That both arrive at one recorder does not say at which. `Counts` does, in terms
of the samples alone: the keys are their first occurrences, in order and in the
form in which they came first.
-/

namespace LoadReport

open Bucket

namespace Recorder

/-! ## One by one -/

/-- A sample is never refused. -/
theorem foldlM_add (samples : List Number) (r : Recorder) :
    samples.foldlM (fun r key => r.add key 1) r
      = .ok (samples.foldl (fun r key => r.record key 1) r) := by
  induction samples generalizing r with
  | nil => rfl
  | cons key samples ih =>
      rw [List.foldlM_cons, List.foldl_cons, ← ih]
      rfl

theorem foldl_record_one (samples : List Number) (r : Recorder) :
    samples.foldl (fun r key => r.record key 1) r
      = { buckets := samples.foldl
            (fun t key => Table.update Number.same key (fun old => old.getD 0 + 1) t) r.buckets
          total := r.total + samples.length } := by
  induction samples generalizing r with
  | nil => rfl
  | cons key samples ih =>
      rw [List.foldl_cons, ih, List.foldl_cons, record, List.length_cons, Nat.add_assoc,
        Nat.add_comm 1]

theorem foldl_record_one_eq (samples : List Number) :
    samples.foldl (fun (r : Recorder) key => r.record key 1) {}
      = { buckets := occurrences samples, total := samples.length } := by
  rw [foldl_record_one, occurrences, Nat.zero_add]

theorem ofCalls_map_one (samples : List Number) :
    ofCalls (samples.map fun key => (key, 1))
      = { buckets := occurrences samples, total := samples.length } := by
  rw [← foldl_record_one_eq, ofCalls, List.foldl_map]
  rfl

/-! ## Key by key -/

theorem foldl_record (entries : Table Number Nat) (r : Recorder) :
    entries.foldl (fun r e => r.record e.1 e.2) r
      = { buckets := entries.foldl
            (fun t e => Table.update Number.same e.1 (fun old => old.getD 0 + e.2) t) r.buckets
          total := r.total + (entries.map (·.2)).sum } := by
  induction entries generalizing r with
  | nil => rfl
  | cons e entries ih =>
      rw [List.foldl_cons, ih, List.foldl_cons, record, List.map_cons, List.sum_cons, Nat.add_assoc]

theorem distinct_occurrences (samples : List Number) :
    Table.Distinct Number.same (occurrences samples) := by
  have htracks := tracks_ofCalls (samples.map fun key => (key, 1))
  rw [ofCalls_map_one] at htracks
  exact htracks.distinct

theorem total_eq_sum (t : Table Number Nat) :
    Bucket.total (counted t) = ((t.map (·.2)).sum : Nat) := by
  induction t with
  | nil => rfl
  | cons e t ih =>
      rw [List.map_cons, List.sum_cons, Int.natCast_add, ← ih]
      rfl

theorem sum_occurrences (samples : List Number) :
    ((occurrences samples).map (·.2)).sum = samples.length := by
  have htotal := total_counted (samples.map fun key => (key, 1))
  rw [ofCalls_map_one, total_eq_sum] at htotal
  exact Int.ofNat_inj.mp htotal

/-- The recorder of a list of samples holds what was counted, and nothing is
added up that is not a sample. -/
theorem ofSamples_eq (samples : List Number) :
    ofSamples samples = { buckets := occurrences samples, total := samples.length } := by
  have hdistinct : Table.Distinct Number.same ([] ++ occurrences samples) :=
    distinct_occurrences samples
  have hcopy := Table.foldl_update_of_distinct (f := fun (n : Nat) old => old.getD 0 + n)
    (fun n => Nat.zero_add n) hdistinct
  rw [ofSamples, foldl_record, sum_occurrences, hcopy, List.nil_append, Nat.zero_add]

/-! ## What is recorded -/

/-- The recorder that a list of samples is to leave behind. There is a bucket
for each value, under the form in which it came first, and for each NaN; they
stand in the order in which their keys came up. A bucket counts the samples of
its value. -/
structure Counts (samples : List Number) (r : Recorder) : Prop where
  keys_eq : Table.keys r.buckets = samples.eraseDupsBy Number.same
  count_eq : ∀ b ∈ r.buckets, b.1.isNan = false → b.2 = samples.countP fun key => key.same b.1
  count_nan : ∀ b ∈ r.buckets, b.1.isNan = true → b.2 = 1
  total_eq : r.total = samples.length

theorem counts_ofSamples (samples : List Number) : Counts samples (ofSamples samples) := by
  have htracks := tracks_ofCalls (samples.map fun key => (key, 1))
  rw [ofCalls_map_one, ← ofSamples_eq] at htracks
  refine ⟨?_, fun b hb hnan => ?_, fun b hb hnan => ?_, by rw [ofSamples_eq]⟩
  · rw [ofSamples_eq]
    exact Table.keys_foldl_update Number.same_comm _ samples
  · have hget := get_of_mem htracks.distinct hb hnan
    have hvisits : (ofSamples samples).visits.Perm (counted (ofSamples samples).buckets) :=
      visitOrder_perm _
    have hcount := (represents_ofSamples samples).countWhere_eq (byValue_same b.1)
    rw [countWhere_perm hvisits, ← get_eq_countWhere htracks.distinct, hget] at hcount
    exact Int.ofNat_inj.mp hcount
  · have hmem : (b.1, (b.2 : Int))
        ∈ (counted (ofSamples samples).buckets).filter fun b => b.1.isNan :=
      List.mem_filter.mpr ⟨List.mem_map.mpr ⟨b, hb, rfl⟩, hnan⟩
    rw [htracks.nans] at hmem
    obtain ⟨key, -, heq⟩ := List.mem_map.mp (List.mem_filter.mp (List.mem_filter.mp hmem).1).1
    exact (Int.ofNat_inj.mp (Prod.mk.inj heq).2).symm

/-- **Recording in a batch is recording one by one.** No sample is refused, and
the recorder that is left is the one of the whole batch: the same buckets with
the same keys and counts in the same order, so the same traversal, and the same
total. It counts the samples as they are: each value under the form that came
first, each NaN for itself, and as many in all as there are samples. -/
theorem foldlM_add_eq_ofSamples (samples : List Number) :
    samples.foldlM (fun (r : Recorder) key => r.add key 1) {} = .ok (ofSamples samples)
      ∧ Counts samples (ofSamples samples) := by
  refine ⟨?_, counts_ofSamples samples⟩
  rw [foldlM_add, foldl_record_one_eq, ofSamples_eq]

/-- One comes as a whole number first and NaN twice. -/
example : (ofSamples [.int 1, .float .nan, .float (.ofInt 1), .float .nan]).buckets
    = [(.int 1, 2), (.float .nan, 1), (.float .nan, 1)] := by
  decide +kernel

end Recorder
end LoadReport
