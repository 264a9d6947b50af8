import LoadReport.Proofs.Histogram.Recording
import LoadReport.Proofs.Summary.Growth
import LoadReport.Proofs.Summary.Samples

/-!
# Splitting a bucket

A traversal may pass the same whole key in several buckets, as the one of a
recorder never does. Of the four statistics only the spread notices: it
counts each bucket once. For the others the two sides are compared through
what they have in common, the amounts of samples by value (`SameAmounts`).

- The number of samples and the sum of the keys are amounts, hence the mean.
- A greatest key of either side is held on the other.
- The walk to a rank passes other buckets at other cumulative counts, and
  stops at the least key that reaches the rank on either side
  (`keyAtRank_eq`). Growth settles this: neither side has more samples below
  a key than the other.

Whole keys are needed in the last step of each, where a key that is the same
number has to be the same key.
-/

namespace LoadReport

open Bucket

/-! ## The same amounts -/

namespace Bucket

def SameAmounts (xs ys : List Bucket) : Prop :=
  ∀ weight, ByValue weight → weigh weight xs = weigh weight ys

variable {xs ys : List Bucket}

theorem SameAmounts.symm (h : SameAmounts xs ys) : SameAmounts ys xs :=
  fun weight hweight => (h weight hweight).symm

theorem SameAmounts.total_eq (h : SameAmounts xs ys) : total xs = total ys := by
  rw [← weigh_one, ← weigh_one]
  exact h _ (byValue_const 1)

theorem SameAmounts.countWhere_eq (h : SameAmounts xs ys) {test : Number → Bool}
    (htest : ByValue (indicator test)) : countWhere test xs = countWhere test ys := by
  rw [countWhere_eq_weigh, countWhere_eq_weigh]
  exact h _ htest

theorem SameAmounts.grown (h : SameAmounts xs ys) (key : Number) : Grown key xs ys where
  total_le := Int.le_of_eq h.total_eq
  countWhere_eq _ htest _ := (h.countWhere_eq htest).symm

theorem SameAmounts.exists_same (h : SameAmounts xs ys) (hxs : ∀ b ∈ xs, 0 < b.2)
    (hys : ∀ b ∈ ys, 0 < b.2) {b : Bucket} (hb : b ∈ xs) (hnan : b.1.isNan = false) :
    ∃ c ∈ ys, c.1.same b.1 = true :=
  exists_same_of_countWhere_eq hxs hys hb hnan (h.countWhere_eq (byValue_same b.1))

end Bucket

namespace Summary

open Percentile

/-! ## Two summaries of the same amounts -/

/-- Summaries that differ in their spread at most. -/
structure AgreesUpToSpread (s t : Summary) : Prop where
  mean : s.mean = t.mean
  max : s.max = t.max
  percentiles : s.percentiles = t.percentiles

section SameAmounts

variable {xs ys : List Bucket} {ps : List Number} {s t : Summary}

theorem Assembled.keyAtRank_eq (hs : Assembled xs ps s) (ht : Assembled ys ps t)
    (hsame : SameAmounts xs ys) (hxs : Whole xs) (hys : Whole ys) (r : Int) :
    keyAtRank r 0 (Arrangement.arrange xs) = keyAtRank r 0 (Arrangement.arrange ys) := by
  have hsuffices : (keyAtRank r 0 (Arrangement.arrange xs)).isSome
      = (keyAtRank r 0 (Arrangement.arrange ys)).isSome := by
    rw [Bool.eq_iff_iff, hs.isSome_keyAtRank hxs.pos, ht.isSome_keyAtRank hys.pos, hsame.total_eq]
  cases hkey : keyAtRank r 0 (Arrangement.arrange xs) with
  | none =>
      rw [hkey] at hsuffices
      exact (Option.isNone_iff_eq_none.mp (Option.isSome_eq_false_iff.mp hsuffices.symm)).symm
  | some key =>
      rw [hkey] at hsuffices
      obtain ⟨key', hkey'⟩ := Option.isSome_iff_exists.mp hsuffices.symm
      have hleast := leastReaching_of_arrange hxs.isNan hxs.pos hkey
      have hleast' := leastReaching_of_arrange hys.isNan hys.pos hkey'
      -- the rank is the same on both sides, so growth holds either way
      have hle := hleast.le_of_grown hleast' (hsame.grown key) hxs.pos hys.pos hys.isNan
        (Int.le_refl r)
      have hge := hleast'.le_of_grown hleast (hsame.symm.grown key') hys.pos hxs.pos hxs.isNan
        (Int.le_refl r)
      obtain ⟨n, hmem⟩ := hleast.held
      obtain ⟨n', hmem'⟩ := hleast'.held
      have heq : key = key' := Number.eq_of_same (hxs.isInt _ hmem) (hys.isInt _ hmem')
        (Number.same_of_le_of_le hle hge)
      rw [hkey', heq]

theorem Assembled.max_eq (hs : Assembled xs ps s) (ht : Assembled ys ps t)
    (hsame : SameAmounts xs ys) (hxs : Whole xs) (hys : Whole ys) : s.max = t.max := by
  obtain ⟨b, hb, hgreatest, hmax⟩ := (hs.followsRule hxs.isNan hxs.pos).max
  obtain ⟨c, hc, hgreatest', hmax'⟩ := (ht.followsRule hys.isNan hys.pos).max
  obtain ⟨b', hb', hbb'⟩ := hsame.exists_same hxs.pos hys.pos hb (hxs.isNan b hb)
  obtain ⟨c', hc', hcc'⟩ := hsame.symm.exists_same hys.pos hxs.pos hc (hys.isNan c hc)
  have hle : b.1.le c.1 = true := by
    rw [← Number.le_congr_left hbb']
    exact hgreatest' b' hb'
  have hge : c.1.le b.1 = true := by
    rw [← Number.le_congr_left hcc']
    exact hgreatest c' hc'
  have heq : b.1 = c.1 := Number.eq_of_same (hxs.isInt b hb) (hys.isInt c hc)
    (Number.same_of_le_of_le hle hge)
  rw [heq, hmax'] at hmax
  exact (Except.ok.inj hmax).symm

theorem Assembled.agreesUpToSpread (hs : Assembled xs ps s) (ht : Assembled ys ps t)
    (hsame : SameAmounts xs ys) (hxs : Whole xs) (hys : Whole ys) : AgreesUpToSpread s t where
  mean := by
    have hmean := hs.quotient_eq hxs.isInt
    rw [hsame _ byValue_wholeValue, hsame.total_eq, ht.quotient_eq hys.isInt] at hmean
    exact (Except.ok.inj hmean).symm
  max := hs.max_eq ht hsame hxs hys
  percentiles := by
    have hkeys : keyOf (Arrangement.arrange xs) (Bucket.total xs)
        = keyOf (Arrangement.arrange ys) (Bucket.total ys) := by
      funext p
      unfold keyOf
      simp only [hsame.total_eq, hs.keyAtRank_eq ht hsame hxs hys]
    rw [resolved_eq_foldl hs.resolved, resolved_eq_foldl ht.resolved, hkeys]

end SameAmounts

/-! ## A traversal and its recorder -/

theorem sameAmounts_retained_ofCalls {visits : List Bucket} (hcount : ∀ b ∈ visits, 0 ≤ b.2) :
    SameAmounts (retained .nothing visits)
      (retained .nothing (Recorder.ofCalls visits).visits) := by
  intro weight hweight
  have haccepted : Recorder.accepted visits = visits :=
    List.filter_eq_self.mpr fun b hb => decide_eq_true (hcount b hb)
  rw [weigh_retained_nothing weight hcount,
    weigh_retained_nothing weight fun b hb => Recorder.count_nonneg_of_mem_visits hb]
  have hperm : (Recorder.ofCalls visits).visits.Perm (counted (Recorder.ofCalls visits).buckets) :=
    visitOrder_perm _
  rw [weigh_perm hperm, (Recorder.tracks_ofCalls visits).weigh_eq weight hweight, haccepted]

theorem whole_retained_ofCalls {visits : List Bucket} (hint : ∀ b ∈ visits, b.1.isInt = true) :
    Whole (retained .nothing (Recorder.ofCalls visits).visits) := by
  refine whole_retained fun b hb => ?_
  obtain ⟨call, hcall, hkey⟩ := Recorder.exists_call (mem_retained.mp hb).1
  rw [← hkey]
  exact hint call hcall

/-- **Splitting a bucket changes only the spread.** -/
theorem agreesUpToSpread_of_split {visits : List Bucket}
    (hint : ∀ b ∈ visits, b.1.isInt = true) (hcount : ∀ b ∈ visits, 0 ≤ b.2) {ps : List Number}
    {split merged : Option Summary}
    (hsplit : (ofLatencies (.listed visits) ps).outcome = .ok split)
    (hmerged : (ofLatencies (.live (Recorder.ofCalls visits)) ps).outcome = .ok merged) :
    (split = none ∧ merged = none)
      ∨ ∃ s t, split = some s ∧ merged = some t ∧ AgreesUpToSpread s t := by
  have hsame := sameAmounts_retained_ofCalls hcount
  rcases Int.lt_or_le (total (retained .nothing visits)) 1 with hempty | hsome
  · have hempty' := hempty
    rw [hsame.total_eq] at hempty'
    obtain ⟨-, -, hsplit⟩ := compute_eq_ok_iff.mp hsplit
    obtain ⟨-, -, hmerged⟩ := compute_eq_ok_iff.mp hmerged
    rw [Histogram.visits, ofRetained_eq_ok_none_iff.mpr hempty] at hsplit
    rw [Histogram.visits, ofRetained_eq_ok_none_iff.mpr hempty'] at hmerged
    exact Or.inl ⟨(Except.ok.inj hsplit).symm, (Except.ok.inj hmerged).symm⟩
  · have hsome' := hsome
    rw [hsame.total_eq] at hsome'
    obtain ⟨s, rfl, hs⟩ := exists_assembled hsplit hsome
    obtain ⟨t, rfl, ht⟩ := exists_assembled hmerged hsome'
    have hwhole : Whole (retained .nothing visits) :=
      whole_retained fun b hb => hint b (mem_retained.mp hb).1
    exact Or.inr ⟨s, t, rfl, rfl,
      hs.agreesUpToSpread ht hsame hwhole (whole_retained_ofCalls hint)⟩

/-- Nought once and nine twice have the mean six. In two buckets the nines
count with nine each, and the spread is above four; in one bucket it is not. -/
theorem agreesUpToSpread_of_split_nine : ∃ s t,
    (ofLatencies (.listed [(.int 0, 1), (.int 9, 1), (.int 9, 1)]) [.float .half]).outcome
        = .ok (some s)
      ∧ (ofLatencies (.live (Recorder.ofCalls [(.int 0, 1), (.int 9, 1), (.int 9, 1)]))
        [.float .half]).outcome = .ok (some t)
      ∧ AgreesUpToSpread s t
      ∧ (Number.int 4).le (.float s.stddev) = true
      ∧ (Number.int 4).le (.float t.stddev) = false := by
  have hsplit : Arrangement.arrange [(.int 0, 1), (.int 9, 1), (.int 9, 1)]
      = [(.int 0, 1), (.int 9, 1), (.int 9, 1)] := by
    rw [Arrangement.arrange_of_no_nan (by decide)]
    exact List.mergeSort_of_pairwise (by decide +kernel)
  have hmerged : Arrangement.arrange [(.int 0, 1), (.int 9, 2)] = [(.int 0, 1), (.int 9, 2)] :=
    Arrangement.arrange_eq (by decide) (by decide +kernel) (by decide +kernel) (.refl _)
  have hvisits : (Recorder.ofCalls [(.int 0, 1), (.int 9, 1), (.int 9, 1)]).visits
      = [(.int 0, 1), (.int 9, 2)] := by
    have hbuckets : counted (Recorder.ofCalls [(.int 0, 1), (.int 9, 1), (.int 9, 1)]).buckets
        = [(.int 0, 1), (.int 9, 2)] := by decide +kernel
    rw [← hmerged, Arrangement.arrange_of_no_nan (by decide), ← hbuckets]
    rfl
  have hs : ∃ s, ofRetained [(.int 0, 1), (.int 9, 1), (.int 9, 1)] [.float .half]
      = .ok (some s) ∧ (Number.int 4).le (.float s.stddev) = true := by
    refine exists_summary_of ?_
    simp only [ofRetained, hsplit]
    decide +kernel
  have ht : ∃ t, ofRetained [(.int 0, 1), (.int 9, 2)] [.float .half] = .ok (some t)
      ∧ (!(Number.int 4).le (.float t.stddev)) = true := by
    refine exists_summary_of ?_
    simp only [ofRetained, hmerged]
    decide +kernel
  obtain ⟨s, hs, habove⟩ := hs
  obtain ⟨t, ht, hbelow⟩ := ht
  have hint : ∀ b ∈ ([(.int 0, 1), (.int 9, 1), (.int 9, 1)] : List Bucket),
      b.1.isInt = true := by decide
  have hcount : ∀ b ∈ ([(.int 0, 1), (.int 9, 1), (.int 9, 1)] : List Bucket),
      0 ≤ b.2 := by decide
  have hs' : (ofLatencies (.listed [(.int 0, 1), (.int 9, 1), (.int 9, 1)])
      [.float .half]).outcome = .ok (some s) :=
    (outcome_nothing (by decide) _).trans hs
  have ht' : (ofLatencies (.live (Recorder.ofCalls [(.int 0, 1), (.int 9, 1), (.int 9, 1)]))
      [.float .half]).outcome = .ok (some t) := by
    rw [ofLatencies, Histogram.visits, hvisits]
    exact (outcome_nothing (by decide) _).trans ht
  rcases agreesUpToSpread_of_split hint hcount hs' ht' with ⟨hnone, -⟩ | ⟨s', t', hs'', ht'', h⟩
  · cases hnone
  · obtain rfl := Option.some.inj hs''
    obtain rfl := Option.some.inj ht''
    exact ⟨s, t, hs', ht', h, habove, (Bool.not_eq_true' _).mp hbelow⟩

end Summary
end LoadReport
