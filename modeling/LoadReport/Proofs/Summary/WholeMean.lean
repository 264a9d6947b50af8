import LoadReport.Proofs.Summary.Resolution
import LoadReport.Proofs.Summary.Samples

/-!
# The mean of whole keys

Whole keys are multiplied with their counts and added up without rounding,
however far beyond binary64 this goes, and their mean is one quotient that is
rounded once. That has two consequences that the sum of rounded products does
not have.

- The mean is the number nearest to the exact mean.
- It is not below the least key in binary64, nor above the greatest. An exact
  mean is between the keys; these are converted by the same rounding, as
  quotients over the same number of samples, and rounding keeps the order.
-/

namespace LoadReport

open Bucket Binary64

/-! ## The exact sum is between the extremes -/

section Extremes

variable {buckets : List Bucket} {n : Int}

theorem exists_leastKey (hnan : ∀ b ∈ buckets, b.1.isNan = false)
    (hne : Arrangement.arrange buckets ≠ []) : ∃ key, LeastKey buckets key := by
  have hperm := Arrangement.arrange_perm buckets
  have hasc := Arrangement.pairwise_le_arrange hnan
  generalize Arrangement.arrange buckets = ascending at hperm hasc hne
  cases ascending with
  | nil => exact absurd rfl hne
  | cons b rest =>
      obtain ⟨hfirst, -⟩ := List.pairwise_cons.mp hasc
      have hb : b ∈ buckets := hperm.subset (List.mem_cons_self ..)
      refine ⟨b.1, ⟨b.2, hb⟩, fun c hc => ?_⟩
      rcases List.mem_cons.mp (hperm.symm.subset hc) with rfl | hrest
      · exact Number.le_refl (hnan c hc)
      · exact hfirst c hrest

theorem LeastKey.mul_total_le (h : LeastKey buckets (.int n)) (hwhole : Whole buckets) :
    n * total buckets ≤ weigh Summary.wholeValue buckets := by
  rw [← weigh_const]
  refine weigh_mono (fun b hb => Int.le_of_lt (hwhole.pos b hb)) fun b hb => ?_
  have hle := h.le b hb
  obtain ⟨m, hm⟩ := hwhole.exists_int hb
  rw [hm, Number.le_int] at hle
  rw [hm, Summary.wholeValue_int]
  exact of_decide_eq_true hle

theorem GreatestKey.le_mul_total (h : GreatestKey buckets (.int n)) (hwhole : Whole buckets) :
    weigh Summary.wholeValue buckets ≤ n * total buckets := by
  rw [← weigh_const]
  refine weigh_mono (fun b hb => Int.le_of_lt (hwhole.pos b hb)) fun b hb => ?_
  have hge := h.ge b hb
  obtain ⟨m, hm⟩ := hwhole.exists_int hb
  rw [hm, Number.le_int] at hge
  rw [hm, Summary.wholeValue_int]
  exact of_decide_eq_true hge

end Extremes

/-! ## The mean is between the extremes -/

namespace Summary

variable {buckets : List Bucket} {ps : List Number} {s : Summary} {n : Nat}

theorem Assembled.le_mean (h : Assembled buckets ps s) (hwhole : Whole buckets)
    (hn : total buckets = n) (hpos : 0 < n) {least : Number} (hleast : LeastKey buckets least)
    {x : Binary64} (hx : least.toBinary64 = .ok x) :
    (Number.float x).le (.float s.mean) = true := by
  have hmean := h.quotient_eq hwhole.isInt
  obtain ⟨count, hmem⟩ := hleast.held
  obtain ⟨m, rfl⟩ := hwhole.exists_int hmem
  have hsum := hleast.mul_total_le hwhole
  rw [hn] at hsum hmean
  exact le_of_quotient (quotient_mul_of_fitInt hpos hx) hmean hsum

theorem Assembled.mean_le (h : Assembled buckets ps s) (hwhole : Whole buckets)
    (hn : total buckets = n) (hpos : 0 < n) {top : Number} (htop : GreatestKey buckets top)
    {x : Binary64} (hx : top.toBinary64 = .ok x) :
    (Number.float s.mean).le (.float x) = true := by
  have hmean := h.quotient_eq hwhole.isInt
  obtain ⟨count, hmem⟩ := htop.held
  obtain ⟨m, rfl⟩ := hwhole.exists_int hmem
  have hsum := htop.le_mul_total hwhole
  rw [hn] at hsum hmean
  exact le_of_quotient hmean (quotient_mul_of_fitInt hpos hx) hsum

/-- **The mean of whole keys is rounded once and stays between the
extremes.** -/
theorem mean_of_whole {h : Histogram} {ps : List Number} {s : Summary}
    (hint : ∀ b ∈ retained .nothing h.visits, b.1.isInt = true)
    (hs : (ofLatencies h ps).outcome = .ok (some s)) :
    ∃ (n : Nat) (least : Number) (x : Binary64), total (retained .nothing h.visits) = n ∧ 0 < n
      ∧ s.mean.NearestTo ((retained .nothing h.visits).map wholeProduct).sum n
      ∧ LeastKey (retained .nothing h.visits) least ∧ least.toBinary64 = .ok x
      ∧ (Number.float x).le (.float s.mean) = true
      ∧ (Number.float s.mean).le (.float s.max) = true := by
  have hwhole := whole_retained hint
  obtain ⟨-, -, hassembled⟩ := compute_eq_ok_iff.mp hs
  rw [ofRetained_eq_ok_some_iff] at hassembled
  obtain ⟨n, hn, hpos⟩ := hassembled.exists_total
  obtain ⟨least, hleast⟩ := exists_leastKey hwhole.isNan hassembled.arrange_ne_nil
  obtain ⟨count, hmem⟩ := hleast.held
  obtain ⟨x, hx⟩ := hassembled.exists_toBinary64 hmem
  obtain ⟨b, hb, hgreatest, hmax⟩ := (hassembled.followsRule hwhole.isNan hwhole.pos).max
  have htop : GreatestKey (retained .nothing h.visits) b.1 := ⟨⟨b.2, hb⟩, hgreatest⟩
  have hquotient := hassembled.quotient_eq hint
  rw [hn, ← sum_wholeProduct hint] at hquotient
  exact ⟨n, least, x, hn, hpos, nearestTo_of_quotient hquotient, hleast, hx,
    hassembled.le_mean hwhole hn hpos hleast hx, hassembled.mean_le hwhole hn hpos htop hmax⟩

/-- Two keys that are one number in binary64, each 2^70 times: their products
are beyond binary64, and the mean is not. -/
theorem mean_of_whole_huge :
    let h : Histogram := .listed [(.int (2 ^ 1000 + 1), 2 ^ 70), (.int (2 ^ 1000), 2 ^ 70)]
    ∃ s, (∀ b ∈ retained .nothing h.visits, b.1.isInt = true)
      ∧ (ofLatencies h []).outcome = .ok (some s)
      ∧ s.mean.NearestTo ((2 ^ 1000 + 1) * 2 ^ 70 + 2 ^ 1000 * 2 ^ 70) (2 ^ 71)
      ∧ (Number.float s.mean).le (.float s.max) = true := by
  intro h
  have hretained : retained .nothing h.visits
      = [(.int (2 ^ 1000 + 1), 2 ^ 70), (.int (2 ^ 1000), 2 ^ 70)] :=
    retained_nothing (by decide +kernel)
  have harrange : Arrangement.arrange [(.int (2 ^ 1000 + 1), 2 ^ 70), (.int (2 ^ 1000), 2 ^ 70)]
      = [(.int (2 ^ 1000), 2 ^ 70), (.int (2 ^ 1000 + 1), 2 ^ 70)] :=
    Arrangement.arrange_eq (by decide +kernel) (by decide +kernel) (by decide +kernel) (.swap ..)
  have hexists : ∃ s, ofRetained [(.int (2 ^ 1000 + 1), 2 ^ 70), (.int (2 ^ 1000), 2 ^ 70)] []
      = .ok (some s) := by
    refine exists_summary ?_
    simp only [ofRetained, harrange]
    decide +kernel
  obtain ⟨s, hs⟩ := hexists
  have hint : ∀ b ∈ retained .nothing h.visits, b.1.isInt = true := by
    rw [hretained]
    decide
  have hcompute : (ofLatencies h []).outcome = .ok (some s) :=
    (outcome_nothing (by decide +kernel) _).trans hs
  obtain ⟨n, least, x, hn, -, hmean, -, -, -, hle⟩ := mean_of_whole hint hcompute
  rw [hretained] at hn hmean
  have htotal : total [(.int (2 ^ 1000 + 1), 2 ^ 70), (.int (2 ^ 1000), 2 ^ 70)]
      = ((2 ^ 71 : Nat) : Int) := by decide +kernel
  have hsum : (([(.int (2 ^ 1000 + 1), 2 ^ 70), (.int (2 ^ 1000), 2 ^ 70)] : List Bucket).map
      wholeProduct).sum = (2 ^ 1000 + 1) * 2 ^ 70 + 2 ^ 1000 * 2 ^ 70 := by decide +kernel
  rw [Int.ofNat_inj.mp (hn.symm.trans htotal), hsum] at hmean
  exact ⟨s, hint, hcompute, hmean, hle⟩

end Summary
end LoadReport
