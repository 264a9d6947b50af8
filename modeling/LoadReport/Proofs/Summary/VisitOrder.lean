import Mathlib.Data.List.Perm.Basic
import LoadReport.Proofs.Binary64.ExactSum
import LoadReport.Proofs.Summary.Arrangement
import LoadReport.Proofs.Summary.Outcome

/-!
# The order of a traversal

Two traversals that pass the same buckets in different orders have the same
summary, provided that the retained keys are different numbers. Two arguments
meet in this.

- Most of a summary is computed from the arrangement, and of the same
  buckets there is only one (`arrange_eq_of_perm`).
- The squared deviations are summed in the order of the traversal. Their
  mean is the same on both sides, so they are the same up to order, and a
  sum that has a result does not depend on the order of its summands
  (`spreadOf_perm`).

Whether that sum has a result may well depend on the order, which is why the
summaries are compared when both traversals have one.
-/

namespace LoadReport

open Bucket

namespace Summary

variable {exclude : Exclusion} {visits visits' : List Bucket}

/-! ## What permutations keep -/

theorem retained_perm (h : visits.Perm visits') :
    (retained exclude visits).Perm (retained exclude visits') := h.filter _

theorem excluded_perm (h : visits.Perm visits') :
    excluded exclude visits = excluded exclude visits' := countWhere_perm h

theorem Decided.perm (hdecided : Decided exclude visits) (h : visits.Perm visits') :
    Decided exclude visits' := fun b hb => hdecided b (h.symm.subset hb)

theorem arrange_eq_of_perm {xs ys : List Bucket} (hnan : ∀ b ∈ xs, b.1.isNan = false)
    (hdistinct : xs.Pairwise fun a b => a.1.same b.1 = false) (h : xs.Perm ys) :
    Arrangement.arrange xs = Arrangement.arrange ys := by
  have hnan' : ∀ b ∈ ys, b.1.isNan = false := fun b hb => hnan b (h.symm.subset hb)
  exact Arrangement.arrange_eq hnan hdistinct (Arrangement.pairwise_le_arrange hnan')
    (h.trans (Arrangement.arrange_perm ys).symm)

theorem mapM_perm {α : Type} {f : α → Except Fault Binary64} {xs ys : List α}
    {ds es : List Binary64} (h : xs.Perm ys) (hds : xs.mapM f = .ok ds)
    (hes : ys.mapM f = .ok es) : ds.Perm es := by
  rw [Except.mapM_eq_ok_iff] at hds hes
  have hmap := h.map f
  rw [hds, hes] at hmap
  exact (List.map_perm_map_iff fun _ _ => Except.ok.inj).mp hmap

open Binary64.ExactSum in
theorem spreadOf_perm {ds es : List Binary64} {total : Int} {x y : Binary64} (h : ds.Perm es)
    (hx : spreadOf ds total = .ok x) (hy : spreadOf es total = .ok y) : x = y := by
  unfold spreadOf at hx hy
  split at hx
  · next hmany =>
      rw [if_pos hmany] at hy
      obtain ⟨sum, hsumx, hx⟩ := Except.bind_eq_ok_iff.mp hx
      obtain ⟨sum', hsumy, hy⟩ := Except.bind_eq_ok_iff.mp hy
      obtain rfl : sum = sum' := by
        have hds := sumOf_of_sumBy hsumx
        rw [sumOf_perm h, sumOf_of_sumBy hsumy] at hds
        exact (Except.ok.inj hds).symm
      exact Except.ok.inj (hx.symm.trans hy)
  · next hfew =>
      rw [if_neg hfew] at hy
      exact Except.ok.inj (hx.symm.trans hy)

/-! ## The summary -/

theorem Assembled.eq_of_perm {xs ys : List Bucket} {ps : List Number} {s t : Summary}
    (hs : Assembled xs ps s) (ht : Assembled ys ps t) (hnan : ∀ b ∈ xs, b.1.isNan = false)
    (hdistinct : xs.Pairwise fun a b => a.1.same b.1 = false) (h : xs.Perm ys) : s = t := by
  have harrange := arrange_eq_of_perm hnan hdistinct h
  have htotal := total_perm h
  have hpercentiles : s.percentiles = t.percentiles := by
    have hresolved := hs.resolved
    rw [harrange, htotal, ht.resolved] at hresolved
    exact (Except.ok.inj hresolved).symm
  have hmean : s.mean = t.mean := by
    have hmean := hs.mean
    rw [harrange, htotal, ht.mean] at hmean
    exact (Except.ok.inj hmean).symm
  have hmax : s.max = t.max := by
    have hmax := hs.greatest
    rw [harrange, ht.greatest] at hmax
    exact (Except.ok.inj hmax).symm
  have hstddev : s.stddev = t.stddev := by
    obtain ⟨ds, hds, hspread⟩ := hs.spread
    obtain ⟨es, hes, hspread'⟩ := ht.spread
    rw [hmean] at hds
    rw [htotal] at hspread
    exact spreadOf_perm (mapM_perm h hds hes) hspread hspread'
  cases s
  cases t
  simp only at hpercentiles hmean hmax hstddev
  rw [hpercentiles, hmean, hmax, hstddev]

theorem outcome_none_of_perm {ps : List Number} (h : visits.Perm visits')
    (hnone : (compute visits ps exclude).outcome = .ok none) :
    (compute visits' ps exclude).outcome = .ok none := by
  obtain ⟨hdecided, hnotice, hempty⟩ := compute_eq_ok_iff.mp hnone
  rw [ofRetained_eq_ok_none_iff, total_perm (retained_perm h)] at hempty
  rw [excluded_perm h] at hnotice
  exact compute_eq_ok_iff.mpr ⟨hdecided.perm h, hnotice, ofRetained_eq_ok_none_iff.mpr hempty⟩

/-- **The order of a traversal does not show in its summary.** -/
theorem compute_perm {ps : List Number} (h : visits.Perm visits')
    (hnan : ∀ b ∈ retained exclude visits, b.1.isNan = false)
    (hdistinct : (retained exclude visits).Pairwise fun a b => a.1.same b.1 = false) :
    ((compute visits ps exclude).outcome = .ok none ↔
        (compute visits' ps exclude).outcome = .ok none)
      ∧ ∀ s t, (compute visits ps exclude).outcome = .ok (some s) →
        (compute visits' ps exclude).outcome = .ok (some t) → s = t := by
  refine ⟨⟨outcome_none_of_perm h, outcome_none_of_perm h.symm⟩, fun s t hs ht => ?_⟩
  obtain ⟨-, -, hs⟩ := compute_eq_ok_iff.mp hs
  obtain ⟨-, -, ht⟩ := compute_eq_ok_iff.mp ht
  rw [ofRetained_eq_ok_some_iff] at hs ht
  exact hs.eq_of_perm ht hnan hdistinct (retained_perm h)

/-- Two keys one way round and the other, an empty bucket between them. -/
theorem compute_perm_swapped : ∃ s t,
    (compute [(.int 7, 2), (.int 5, 0), (.int 3, 2)] [.float .half] .nothing).outcome
        = .ok (some s)
      ∧ (compute [(.int 3, 2), (.int 5, 0), (.int 7, 2)] [.float .half] .nothing).outcome
        = .ok (some t)
      ∧ s = t := by
  have hnan : ∀ b ∈ ([(.int 7, 2), (.int 3, 2)] : List Bucket), b.1.isNan = false := by decide
  have hdistinct : ([(.int 7, 2), (.int 3, 2)] : List Bucket).Pairwise
      fun a b => a.1.same b.1 = false := by decide +kernel
  have harrange : Arrangement.arrange [(.int 7, 2), (.int 3, 2)] = [(.int 3, 2), (.int 7, 2)] :=
    Arrangement.arrange_eq hnan hdistinct (by decide +kernel) (.swap ..)
  have harrange' := arrange_eq_of_perm hnan hdistinct (.swap ..)
  have hs : ∃ s, ofRetained [(.int 7, 2), (.int 3, 2)] [.float .half] = .ok (some s) := by
    refine exists_summary ?_
    simp only [ofRetained, harrange]
    decide +kernel
  have ht : ∃ t, ofRetained [(.int 3, 2), (.int 7, 2)] [.float .half] = .ok (some t) := by
    refine exists_summary ?_
    simp only [ofRetained, ← harrange', harrange]
    decide +kernel
  obtain ⟨s, hs⟩ := hs
  obtain ⟨t, ht⟩ := ht
  have hcompute : (compute [(.int 7, 2), (.int 5, 0), (.int 3, 2)] [.float .half]
      .nothing).outcome = .ok (some s) :=
    compute_eq_ok_iff.mpr ⟨fun _ _ => ⟨_, rfl⟩, noticeable_of_lt (by decide +kernel), hs⟩
  have hcompute' : (compute [(.int 3, 2), (.int 5, 0), (.int 7, 2)] [.float .half]
      .nothing).outcome = .ok (some t) :=
    compute_eq_ok_iff.mpr ⟨fun _ _ => ⟨_, rfl⟩, noticeable_of_lt (by decide +kernel), ht⟩
  have hperm : ([(.int 7, 2), (.int 5, 0), (.int 3, 2)] : List Bucket).Perm
      [(.int 3, 2), (.int 5, 0), (.int 7, 2)] := by decide +kernel
  have hsame := @compute_perm .nothing _ _ [.float .half] hperm hnan hdistinct
  exact ⟨s, t, hcompute, hcompute', hsame.2 s t hcompute hcompute'⟩

end Summary
end LoadReport
