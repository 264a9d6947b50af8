import Mathlib.Data.Int.Interval
import LoadReport.Proofs.Histogram.Entries
import LoadReport.Proofs.Summary.Arrangement
import LoadReport.Proofs.Summary.Magnitude

/-!
# Which latencies have a summary

Latencies are whole microseconds, and with keys of 64 bits nothing that is
computed of them comes near the limit, however many samples there are, up to
the largest number that fits at all. So it is never the latencies that are at
fault, only a request that cannot be told (`tooManyDigits_of_latencies`).

The bound of `Within` would not do here. It lets every sample have a key of
its own, so the samples have to be few: a sum of that many squares must not
be too large. Whole keys in a table leave room for 2^64 + 1 buckets only
(`Timings.length_le`), and a bucket is one square, whatever its count. And the
products behind the mean are whole, so the counts need not be numbers of few
bits.
-/

namespace LoadReport

open Bucket Binary64

/-- Whole numbers between two bounds are not many. -/
theorem List.length_le_of_natAbs_le {keys : List Int} (hnodup : keys.Nodup) {bound : Nat}
    (h : ∀ n ∈ keys, n.natAbs ≤ bound) : keys.length ≤ 2 * bound + 1 := by
  have hsubset : keys.toFinset ⊆ Finset.Icc (-(bound : Int)) bound := by
    intro n hn
    have hle := h n (List.mem_toFinset.mp hn)
    rw [Finset.mem_Icc]
    omega
  have hcard := Finset.card_le_card hsubset
  rw [List.toFinset_card_of_nodup hnodup, Int.card_Icc] at hcard
  omega

namespace Summary

/-- Buckets of latencies: whole keys of 64 bits, no key twice, and a number of
samples that fits. -/
structure Timings (buckets : List Bucket) : Prop where
  key : ∀ b ∈ buckets, ∃ n : Int, b.1 = .int n ∧ n.natAbs ≤ 2 ^ 63
  distinct : buckets.Pairwise fun a b => a.1.same b.1 = false
  count_pos : ∀ b ∈ buckets, 0 < b.2
  total_lt : total buckets < (2 ^ 1023 : Nat)

variable {buckets : List Bucket}

theorem Timings.keysWithin (h : Timings buckets) : KeysWithin (63 + unitExponent) buckets :=
  KeysWithin.of_ints h.key

def wholeKey : Bucket → Int
  | (.int n, _) => n
  | (.float _, _) => 0

/-- There are no more buckets than whole numbers to be their keys. -/
theorem Timings.length_le (h : Timings buckets) : buckets.length ≤ 2 ^ 65 := by
  have hkey : ∀ b ∈ buckets, b.1 = .int (wholeKey b) ∧ (wholeKey b).natAbs ≤ 2 ^ 63 := by
    rintro ⟨key, count⟩ hb
    obtain ⟨n, rfl, hle⟩ := h.key _ hb
    exact ⟨rfl, hle⟩
  have hnodup : (buckets.map wholeKey).Nodup := by
    refine List.pairwise_map.mpr (h.distinct.imp_of_mem fun ha hb hab heq => ?_)
    rw [(hkey _ ha).1, (hkey _ hb).1, heq, Number.same_refl rfl] at hab
    cases hab
  have hlength := List.length_le_of_natAbs_le hnodup
    (List.forall_mem_map.mpr fun b hb => (hkey b hb).2)
  rw [List.length_map] at hlength
  omega

theorem Timings.perm {xs ys : List Bucket} (h : Timings xs) (hperm : xs.Perm ys) : Timings ys where
  key b hb := h.key b (hperm.symm.subset hb)
  distinct := h.distinct.perm hperm fun hab => by rwa [Number.same_comm]
  count_pos b hb := h.count_pos b (hperm.symm.subset hb)
  total_lt := by
    rw [← total_perm hperm]
    exact h.total_lt

theorem Timings.exists_mean (h : Timings buckets) {n : Nat} (hn : total buckets = n)
    (hpos : 0 < n) :
    ∃ x u, meanOf buckets n = .ok x ∧ x.units? = some u ∧ u.natAbs ≤ 2 ^ (63 + unitExponent) := by
  have hints : (buckets.all fun b => b.1.isInt) = true := by
    refine List.all_eq_true.mpr fun b hb => ?_
    obtain ⟨m, hm, -⟩ := h.key b hb
    rw [hm]
    rfl
  unfold meanOf
  rw [if_pos hints]
  exact h.keysWithin.exists_mean_of_ints (fun b hb => Int.le_of_lt (h.count_pos b hb)) (by decide)
    hn hpos hints

theorem Timings.fits (h : Timings buckets) {n : Nat} (hn : total buckets = n) :
    roundQuotient (n * unitsPerOne) 1 < unitsLimit := by
  have hlt := h.total_lt
  rw [hn, Int.ofNat_lt] at hlt
  exact roundQuotient_lt_unitsLimit (by decide) (Nat.le_of_lt hlt)

theorem Timings.exists_summary (h : Timings buckets) (hpopulated : 1 ≤ total buckets)
    {ps : List Number} (hps : ∀ p ∈ ps, p.isWritable = true) :
    ∃ s, ofRetained buckets ps = .ok (some s) ∧ s.IsFinite := by
  obtain ⟨n, hn⟩ := Int.eq_ofNat_of_zero_le (show 0 ≤ total buckets by omega)
  have hpos : 0 < n := by omega
  have hperm := Arrangement.arrange_perm buckets
  have hmean := (h.perm hperm.symm).exists_mean ((total_perm hperm).trans hn) hpos
  -- a deviation is at most 2^64, and its square 2^128
  exact exists_summary_of_mean (j := 128 + unitExponent) h.keysWithin (by decide) (by decide)
    (by decide) h.length_le hn hpos (h.fits hn) hmean hps

/-- One request that cannot be told is one too many. -/
theorem Timings.tooManyDigits (h : Timings buckets) (hpopulated : 1 ≤ total buckets)
    {ps : List Number} {p : Number} (hp : p ∈ ps) (hlong : p.isWritable = false) :
    ofRetained buckets ps = .error .tooManyDigits := by
  obtain ⟨n, hn⟩ := Int.eq_ofNat_of_zero_le (show 0 ≤ total buckets by omega)
  obtain ⟨m, hm⟩ := exists_fitInt_of_lt (h.fits hn)
  rw [← hn] at hm
  exact ofRetained_of_not_writable hpopulated hm hp hlong

/-! ## The traversal of a table -/

theorem total_retained_visits (h : Histogram) (exclude : Exclusion) :
    total (retained exclude h.visits) = total (retained exclude h.entries) :=
  total_perm (h.visits_perm.filter _)

theorem timings_visits {h : Histogram} (hkeyed : h.Keyed)
    (hkey : ∀ b ∈ h.entries, ∃ n : Int, b.1 = .int n ∧ n.natAbs ≤ 2 ^ 63)
    (htotal : total (retained .nothing h.entries) < (2 ^ 1023 : Nat)) :
    Timings (retained .nothing h.visits) where
  key b hb := hkey b (h.visits_perm.subset (mem_retained.mp hb).1)
  distinct := hkeyed.distinct_visits.filter _
  count_pos _ hb := count_pos_of_mem_retained hb
  total_lt := by rwa [total_retained_visits h]

/-- **Latencies have a summary if the requests can be told.** Then nothing is
refused, and there is no summary only if there are no samples. Mean, spread and
greatest latency are finite, and the spread is not negative. Only a request with
more digits than are written is refused, and where there are no samples no request
is looked at. -/
theorem exists_result_ofLatencies {h : Histogram} (hkeyed : h.Keyed)
    (hkey : ∀ b ∈ h.entries, ∃ n : Int, b.1 = .int n ∧ n.natAbs ≤ 2 ^ 63)
    (htotal : total (retained .nothing h.entries) < (2 ^ 1023 : Nat)) (ps : List Number) :
    (total (retained .nothing h.entries) = 0 ∨ (∀ p ∈ ps, p.isWritable = true) →
      ∃ result, (ofLatencies h ps).outcome = .ok result
        ∧ (result = none ↔ total (retained .nothing h.entries) = 0)
        ∧ ∀ s, result = some s → s.mean.isFinite = true ∧ s.stddev.isFinite = true
            ∧ s.max.isFinite = true ∧ (Number.int 0).le (.float s.stddev) = true)
      ∧ (total (retained .nothing h.entries) ≠ 0 → (∃ p ∈ ps, p.isWritable = false) →
        (ofLatencies h ps).outcome = .error .tooManyDigits) := by
  have htimings := timings_visits hkeyed hkey htotal
  have houtcome : (ofLatencies h ps).outcome = ofRetained (retained .nothing h.visits) ps :=
    outcome_eq_ofRetained (fun _ _ => ⟨_, rfl⟩) (by rw [excluded_eq_zero fun _ _ => rfl]; rfl) ps
  have hnonneg : 0 ≤ total (retained .nothing h.visits) :=
    total_nonneg fun b hb => Int.le_of_lt (htimings.count_pos b hb)
  rw [houtcome, ← total_retained_visits h]
  constructor
  · by_cases hzero : total (retained .nothing h.visits) = 0
    · intro _
      exact ⟨none, ofRetained_eq_ok_none_iff.mpr (by omega), ⟨fun _ => hzero, fun _ => rfl⟩, nofun⟩
    · intro hps
      obtain ⟨s, hs, hfinite⟩ :=
        htimings.exists_summary (by omega) (hps.resolve_left hzero)
      refine ⟨some s, hs, ⟨nofun, fun h => absurd h hzero⟩, ?_⟩
      rintro s' ⟨⟩
      exact ⟨hfinite.mean, hfinite.stddev, hfinite.max,
        zero_le_of_isBelowZero hfinite.stddev hfinite.stddev_nonneg⟩
  · rintro hsome ⟨p, hp, hlong⟩
    exact htimings.tooManyDigits (by omega) hp hlong

/-- 2^200 samples at one end, three at the other, and two buckets that do not
count. Of the fractions only one half is in range. -/
theorem exists_result_ofLatencies_ends :
    let h : Histogram := .frozen (.ofPairs [(.int (2 ^ 63), 2 ^ 200), (.int (-(2 ^ 63)), 3),
      (.int 7, 0), (.int 8, -5)])
    ∃ s, (ofLatencies h [.float .half, .float .nan, .float (.infinite true), .int 5]).outcome
        = .ok (some s)
      ∧ s.mean.isFinite = true ∧ s.stddev.isFinite = true ∧ s.max.isFinite = true
      ∧ (Number.int 0).le (.float s.stddev) = true := by
  intro h
  have hentries : h.entries
      = [(.int (2 ^ 63), 2 ^ 200), (.int (-(2 ^ 63)), 3), (.int 7, 0), (.int 8, -5)] := by
    decide +kernel
  have hkey : ∀ b ∈ h.entries, ∃ n : Int, b.1 = .int n ∧ n.natAbs ≤ 2 ^ 63 := by
    rw [hentries]
    simp
  have hpopulated : total (retained .nothing h.entries) ≠ 0 := by decide +kernel
  obtain ⟨result, hresult, hnone, hfinite⟩ := (exists_result_ofLatencies
    (Histogram.keyed_ofPairs _) hkey (by decide +kernel)
    [.float .half, .float .nan, .float (.infinite true), .int 5]).1 (.inr (by decide +kernel))
  cases result with
  | none => exact absurd (hnone.mp rfl) hpopulated
  | some s => exact ⟨s, hresult, hfinite s rfl⟩

/-- One sample, and a request of one digit more than are written. It is to be
dropped, and without it there is a summary. -/
theorem tooManyDigits_of_latencies :
    let h : Histogram := .frozen (.ofPairs [(.int 1, 1)])
    h.Keyed ∧ (∀ b ∈ h.entries, ∃ n : Int, b.1 = .int n ∧ n.natAbs ≤ 2 ^ 63)
      ∧ total (retained .nothing h.entries) = 1
      ∧ Percentile.inRange (.int (10 ^ 4300)) = false
      ∧ (ofLatencies h [.int (10 ^ 4300)]).outcome = .error .tooManyDigits
      ∧ ∃ s, (ofLatencies h []).outcome = .ok (some s) := by
  intro h
  have hentries : h.entries = [(.int 1, 1)] := by decide +kernel
  have hvisits : h.visits = [(.int 1, 1)] := by
    show visitOrder (Frozen.ofPairs [(.int 1, 1)]).buckets = _
    decide +kernel
  have houtcome (ps : List Number) : (ofLatencies h ps).outcome = ofRetained [(.int 1, 1)] ps := by
    rw [ofLatencies, hvisits]
    exact outcome_nothing (by decide) ps
  refine ⟨Histogram.keyed_ofPairs _, ?_, by decide +kernel, by decide +kernel, ?_, ?_⟩
  · rw [hentries]
    simp
  · rw [houtcome]
    simp only [ofRetained, Arrangement.arrange_singleton]
    decide +kernel
  · rw [houtcome]
    refine exists_summary ?_
    simp only [ofRetained, Arrangement.arrange_singleton]
    decide +kernel

end Summary
end LoadReport
