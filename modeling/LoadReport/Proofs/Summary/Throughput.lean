import LoadReport.Proofs.Histogram.Recording
import LoadReport.Proofs.Histogram.Samples
import LoadReport.Proofs.Summary.Faults

/-!
# When throughput has no summary

The exclusion takes infinities and NaN out of a throughput histogram, and yet
the statistics of what remains may be refused: finite keys have products,
squares and sums that are not.

- **Which faults there are.** With binary64 keys and a total that binary64
  holds, three of magnitude (`fault_of_ofRetained`): of the faults of each stage,
  those of a conversion do not occur. The keys have no part in a fourth, a request
  that is too long for the notice that it is dropped.
- **When there are none.** Keys up to 2^483 are far enough from the limit
  (`throughput_ofCalls`), and 2^600 is not (`squareTooLarge_of_throughput`).
-/

namespace LoadReport

open Bucket Binary64

namespace Summary

/-! ## The faults of a summary of binary64 keys -/

variable {buckets : List Bucket} {ps : List Number} {fault : Fault} {n : Nat}

theorem not_all_isInt (hfloat : ∀ b ∈ buckets, b.1.isInt = false) (h : 0 < total buckets) :
    ¬ (buckets.all fun b => b.1.isInt) = true := by
  obtain ⟨b, hb⟩ := List.exists_mem_of_ne_nil _ (ne_nil_of_total_pos h)
  intro hall
  have hint := List.all_eq_true.mp hall b hb
  rw [hfloat b hb] at hint
  cases hint

/-- Counts up to a total that binary64 holds do not overflow. -/
theorem fitInt_ne_error {m : Int} (hm : 0 ≤ m) (hle : m ≤ (2 ^ significantBits : Nat)) :
    fitInt m ≠ .error fault := by
  obtain ⟨x, hx, -⟩ := fitInt_of_le (n := m) (by omega)
  rw [hx]
  rintro ⟨⟩

theorem toBinary64_ne_error {key : Number} (hfloat : key.isInt = false) :
    key.toBinary64 ≠ .error fault := by
  obtain ⟨x, rfl⟩ := exists_float hfloat
  rintro ⟨⟩

theorem times_ne_error {key : Number} {m : Int} (hfloat : key.isInt = false) (hm : 0 ≤ m)
    (hle : m ≤ (2 ^ significantBits : Nat)) : key.times m ≠ .error fault := by
  obtain ⟨x, rfl⟩ := exists_float hfloat
  obtain ⟨y, hy, -⟩ := fitInt_of_le (n := m) (by omega)
  rw [Number.times, hy]
  rintro ⟨⟩

/-- **Binary64 keys leave three faults**, and requests one more. -/
theorem fault_of_ofRetained (hfloat : ∀ b ∈ buckets, b.1.isInt = false)
    (hcount : ∀ b ∈ buckets, 0 ≤ b.2) (hle : total buckets ≤ (2 ^ significantBits : Nat))
    (h : ofRetained buckets ps = .error fault) :
    fault = .squareTooLarge ∨ fault = .sumTooLarge ∨ fault = .opposedInfinities
      ∨ (fault = .tooManyDigits ∧ ∃ p ∈ ps, p.isWritable = false) := by
  obtain ⟨hpopulated, hstage⟩ := failsAt_of_ofRetained h
  have hperm := Arrangement.arrange_perm buckets
  have htotal : 0 < total (Arrangement.arrange buckets) := by rw [total_perm hperm]; omega
  have hfits : fitInt (total buckets) ≠ .error fault :=
    fitInt_ne_error (total_nonneg hcount) hle
  obtain ⟨n, hn⟩ := Int.eq_ofNat_of_zero_le (total_nonneg hcount)
  cases hstage with
  | percentiles h =>
      obtain ⟨p, hp, hrefused⟩ := Percentile.exists_of_resolve_eq_error h
      cases hrefused with
      | unranked hrange hrank =>
          exact absurd (Percentile.fitInt_of_rank_eq_error (by omega) hrange hrank) hfits
      | unwritable _ hlong => exact Or.inr (Or.inr (Or.inr ⟨rfl, p, hp, hlong⟩))
  | mean h =>
      rw [hn] at h hfits
      rcases fault_of_meanOf (by omega) h with
        ⟨b, hb, hproduct⟩ | hfit | ⟨-, hints⟩ | hlarge | ⟨hopposed, -⟩
      · have hb := hperm.subset hb
        have hshare := Int.le_trans (count_le_total hcount hb) hle
        exact absurd hproduct (times_ne_error (hfloat b hb) (hcount b hb) hshare)
      · exact absurd hfit hfits
      · exact absurd hints
          (not_all_isInt (fun b hb => hfloat b (hperm.subset hb)) htotal)
      · exact Or.inr (Or.inl hlarge)
      · exact Or.inr (Or.inr (Or.inl hopposed))
  | deviation hb h =>
      rcases fault_of_squaredDeviation h with hkey | hlarge
      · exact absurd hkey (toBinary64_ne_error (hfloat _ hb))
      · exact Or.inl hlarge
  | spread hsquares h =>
      rw [hn] at h hfits
      rcases fault_of_spreadOf (isBelowZero_of_squares hsquares) h with hfit | hlarge
      · exact absurd hfit hfits
      · exact Or.inr (Or.inl hlarge)
  | greatest h =>
      obtain ⟨b, hb, hkey⟩ := toBinary64_of_greatest_eq_error (ne_nil_of_total_pos htotal) h
      exact absurd hkey (toBinary64_ne_error (hfloat b (hperm.subset hb)))

/-! ## What is retained of a recorder -/

theorem total_retained_le (exclude : Exclusion) {visits : List Bucket}
    (h : ∀ b ∈ visits, 0 ≤ b.2) : total (retained exclude visits) ≤ total visits := by
  refine List.Sublist.sum_le_sum (List.filter_sublist.map _) fun n hn => ?_
  obtain ⟨b, hb, rfl⟩ := List.mem_map.mp hn
  exact h b hb

theorem noticeable_of_total_lt {exclude : Exclusion} {visits : List Bucket}
    (h : ∀ b ∈ visits, 0 ≤ b.2) (htotal : total visits ≤ (2 ^ significantBits : Nat)) :
    noticeable (excluded exclude visits) = .ok () := by
  have hle := countWhere_le_total (fun key => !admits exclude key) h
  have hge := countWhere_nonneg (fun key => !admits exclude key) h
  have hbits : 2 ^ significantBits < 10 ^ digitLimit := by decide +kernel
  refine noticeable_of_lt (Nat.lt_of_le_of_lt ?_ hbits)
  unfold excluded
  omega

theorem isFinite_of_mem_retained {visits : List Bucket} {x : Binary64} {count : Int}
    (h : (.float x, count) ∈ retained .nonFinite visits) : x.isFinite = true := by
  obtain ⟨-, hadmitted, -⟩ := mem_retained.mp h
  have hfinite := Except.ok.inj hadmitted
  rwa [Bool.not_eq_false'] at hfinite

theorem natAbs_le_of_le_two_pow {x : Binary64} {u : Int} {k : Nat} (hx : x.units? = some u)
    (hlow : (Number.int (-(2 ^ k : Nat))).le (.float x) = true)
    (hhigh : (Number.float x).le (.int (2 ^ k : Nat)) = true) :
    u.natAbs ≤ 2 ^ (k + unitExponent) := by
  have hplace := position?_of_units? hx
  obtain ⟨p, q, hp, hq, hpq⟩ := Number.le_iff.mp hlow
  obtain ⟨p', q', hp', hq', hpq'⟩ := Number.le_iff.mp hhigh
  obtain rfl := Option.some.inj hp
  obtain rfl := Option.some.inj hq'
  obtain rfl := Option.some.inj (hplace.symm.trans hq)
  obtain rfl := Option.some.inj (hplace.symm.trans hp')
  have hbelow : -(2 ^ k : Nat) * (unitsPerOne : Int) ≤ u := of_decide_eq_true hpq
  have habove : u ≤ (2 ^ k : Nat) * (unitsPerOne : Int) := of_decide_eq_true hpq'
  rw [Int.neg_mul, ← Int.natCast_mul] at hbelow
  rw [← Int.natCast_mul] at habove
  rw [Nat.pow_add, ← unitsPerOne_eq]
  omega

/-- **Throughput has a summary unless its keys are too large.** Recorded
binary64 keys, up to a total that binary64 holds, leave three faults, all of
magnitude; and finite keys up to 2^483 leave none. Besides these there is only
a request with more digits than are written. -/
theorem throughput_ofCalls {calls : List Bucket} (hfloat : ∀ call ∈ calls, call.1.isInt = false)
    (htotal : (Recorder.ofCalls calls).total < 2 ^ 53) (ps : List Number) :
    (∀ fault, (ofThroughput (.live (Recorder.ofCalls calls)) ps).outcome = .error fault →
        fault = .squareTooLarge ∨ fault = .sumTooLarge ∨ fault = .opposedInfinities
          ∨ (fault = .tooManyDigits ∧ ∃ p ∈ ps, p.isWritable = false))
      ∧ ((∀ p ∈ ps, p.isWritable = true) →
        (∀ x count, (.float x, count) ∈ calls → x.isFinite = true →
          (Number.int (-(2 ^ 483 : Nat))).le (.float x) = true
            ∧ (Number.float x).le (.int (2 ^ 483 : Nat)) = true) →
        ∃ result, (ofThroughput (.live (Recorder.ofCalls calls)) ps).outcome = .ok result) := by
  have hcount : ∀ b ∈ (Recorder.ofCalls calls).visits, 0 ≤ b.2 :=
    fun _ hb => Recorder.count_nonneg_of_mem_visits hb
  have hbits : total (Recorder.ofCalls calls).visits ≤ (2 ^ significantBits : Nat) := by
    rw [Recorder.total_visits]
    exact Int.ofNat_le.mpr (Nat.le_of_lt htotal)
  have hkeys : ∀ b ∈ (Recorder.ofCalls calls).visits, b.1.isInt = false := by
    intro b hb
    obtain ⟨call, hcall, hkey⟩ := Recorder.exists_call hb
    rw [← hkey]
    exact hfloat call hcall
  have houtcome : (ofThroughput (.live (Recorder.ofCalls calls)) ps).outcome
      = ofRetained (retained .nonFinite (Recorder.ofCalls calls).visits) ps :=
    outcome_eq_ofRetained (decided_nonFinite hkeys) (noticeable_of_total_lt hcount hbits) ps
  have hle := Int.le_trans (total_retained_le .nonFinite hcount) hbits
  rw [houtcome]
  constructor
  · intro fault h
    exact fault_of_ofRetained (fun b hb => hkeys b (mem_retained.mp hb).1)
      (fun b hb => Int.le_of_lt (count_pos_of_mem_retained hb)) hle h
  · intro hps hbound
    refine Within.exists_result ⟨?_, fun b hb => count_pos_of_mem_retained hb, hle⟩ hps
    rintro ⟨key, count⟩ hb
    obtain ⟨call, hcall, hkey⟩ := Recorder.exists_call (mem_retained.mp hb).1
    obtain ⟨x, rfl⟩ := exists_float (hkeys _ (mem_retained.mp hb).1)
    have hfinite := isFinite_of_mem_retained hb
    obtain ⟨u, hu⟩ := exists_units? hfinite
    have hrecorded : (.float x, call.2) ∈ calls := by
      have hpair : call = (.float x, call.2) := Prod.ext hkey rfl
      rwa [hpair] at hcall
    obtain ⟨hlow, hhigh⟩ := hbound x call.2 hrecorded hfinite
    have hle := natAbs_le_of_le_two_pow hu hlow hhigh
    rw [show 483 + unitExponent = keyExponent from rfl] at hle
    exact ⟨u, position?_of_units? hu, hle⟩

/-- Seven twice and NaN once. -/
theorem throughput_ofCalls_seven :
    (∀ call ∈ ([(.float (.ofInt 7), 2), (.float .nan, 1)] : List Bucket), call.1.isInt = false)
      ∧ (Recorder.ofCalls [(.float (.ofInt 7), 2), (.float .nan, 1)]).total < 2 ^ 53
      ∧ ∃ result, (ofThroughput (.live (Recorder.ofCalls
          [(.float (.ofInt 7), 2), (.float .nan, 1)])) [.float .half]).outcome = .ok result := by
  have hfloat : ∀ call ∈ ([(.float (.ofInt 7), 2), (.float .nan, 1)] : List Bucket),
      call.1.isInt = false := by decide +kernel
  have htotal : (Recorder.ofCalls [(.float (.ofInt 7), 2), (.float .nan, 1)]).total < 2 ^ 53 := by
    decide +kernel
  refine ⟨hfloat, htotal, (throughput_ofCalls hfloat htotal [.float .half]).2 (by decide) ?_⟩
  intro x count hmem hfinite
  simp only [List.mem_cons, List.not_mem_nil, or_false, Prod.mk.injEq, Number.float.injEq] at hmem
  rcases hmem with ⟨rfl, -⟩ | ⟨rfl, -⟩
  · exact ⟨by decide +kernel, by decide +kernel⟩
  · cases hfinite

/-- A key of 2^600 beside zero: the mean is half of it, and the square of
half of it is too large. -/
theorem squareTooLarge_of_throughput :
    (∀ call ∈ ([(.float (.ofInt (2 ^ 600)), 1), (.float (.zero false), 1)] : List Bucket),
        call.1.isInt = false)
      ∧ (Recorder.ofCalls [(.float (.ofInt (2 ^ 600)), 1), (.float (.zero false), 1)]).total
        < 2 ^ 53
      ∧ (ofThroughput (.live (Recorder.ofCalls
          [(.float (.ofInt (2 ^ 600)), 1), (.float (.zero false), 1)])) []).outcome
        = .error .squareTooLarge := by
  refine ⟨by decide +kernel, by decide +kernel, ?_⟩
  have hnan : ∀ b ∈ ([(.float (.ofInt (2 ^ 600)), 1), (.float (.zero false), 1)] : List Bucket),
      b.1.isNan = false := by decide +kernel
  have hasc : ([(.float (.zero false), 1), (.float (.ofInt (2 ^ 600)), 1)] : List Bucket).Pairwise
      fun a b => a.1.le b.1 = true := by decide +kernel
  have harrange : Arrangement.arrange
      [(.float (.ofInt (2 ^ 600)), 1), (.float (.zero false), 1)]
        = [(.float (.zero false), 1), (.float (.ofInt (2 ^ 600)), 1)] :=
    Arrangement.arrange_eq hnan (by decide +kernel) hasc (.swap ..)
  have hvisits : (Recorder.ofCalls
      [(.float (.ofInt (2 ^ 600)), 1), (.float (.zero false), 1)]).visits
        = [(.float (.zero false), 1), (.float (.ofInt (2 ^ 600)), 1)] := by
    rw [← harrange, Arrangement.arrange_of_no_nan hnan]
    exact congrArg visitOrder (by decide +kernel)
  have hretained : retained .nonFinite
      [(.float (.zero false), 1), (.float (.ofInt (2 ^ 600)), 1)]
        = [(.float (.zero false), 1), (.float (.ofInt (2 ^ 600)), 1)] := by decide +kernel
  have harrange' : Arrangement.arrange
      [(.float (.zero false), 1), (.float (.ofInt (2 ^ 600)), 1)]
        = [(.float (.zero false), 1), (.float (.ofInt (2 ^ 600)), 1)] :=
    Arrangement.arrange_eq (by decide +kernel) (by decide +kernel) hasc (.refl _)
  unfold ofThroughput Histogram.visits
  dsimp only
  rw [hvisits, outcome_eq_ofRetained (decided_nonFinite (by decide +kernel))
    (noticeable_of_lt (by decide +kernel)), hretained]
  simp only [ofRetained, harrange']
  decide +kernel

end Summary
end LoadReport
