import LoadReport.Proofs.Summary.Arrangement
import LoadReport.Proofs.Summary.Requests

/-!
# The percentile rule

What a summary says of percentiles and of the greatest key, declared on the
traversal it was computed from: on its retained buckets, in whatever order
they came and however often a key came up (`FollowsRule`).

- A requested fraction has an entry if it is between 0 and 1 and its rank is
  at most the number of retained samples.
- The value is the least retained key such that the samples at most it
  reach the rank.
- The greatest value is that of a greatest retained key.

All of this is said of lists up to permutation, so the arrangement of the
buckets leaves the statement again as soon as it has been used
(`LeastReaching.perm`). It needs an order of the keys, hence no NaN among the
retained ones.
-/

namespace LoadReport

open Bucket

namespace Summary

open Percentile

/-! ## The key at a rank of the arrangement -/

theorem Assembled.isSome_keyAtRank {buckets : List Bucket} {ps : List Number} {s : Summary}
    (h : Assembled buckets ps s) (hpos : ∀ b ∈ buckets, 0 < b.2) (r : Int) :
    (keyAtRank r 0 (Arrangement.arrange buckets)).isSome = true ↔ r ≤ total buckets := by
  have hperm := Arrangement.arrange_perm buckets
  rw [Percentile.isSome_keyAtRank (fun b hb => hpos b (hperm.subset hb)) h.arrange_ne_nil,
    total_perm hperm, Int.zero_add]

theorem leastReaching_of_arrange {buckets : List Bucket} (hnan : ∀ b ∈ buckets, b.1.isNan = false)
    (hpos : ∀ b ∈ buckets, 0 < b.2) {r : Int} {key : Number}
    (h : keyAtRank r 0 (Arrangement.arrange buckets) = some key) :
    LeastReaching buckets r key := by
  have hperm := Arrangement.arrange_perm buckets
  refine (leastReaching_of_keyAtRank (Arrangement.pairwise_le_arrange hnan) (fun b hb => ?_)
    (fun b hb => ?_) h).perm hperm
  · exact hnan b (hperm.subset hb)
  · exact hpos b (hperm.subset hb)

/-! ## The rule -/

/-- What a summary of retained buckets says of the requested fractions and
of the greatest key. -/
structure FollowsRule (buckets : List Bucket) (ps : List Number) (s : Summary) : Prop where
  ranked : ∀ p ∈ ps, inRange p = true → ∃ r, rank p (total buckets) = .ok r
  entry_iff : ∀ p ∈ ps, Table.contains Number.same p s.percentiles = true ↔
    inRange p = true ∧ ∃ r, rank p (total buckets) = .ok r ∧ r ≤ total buckets
  value : ∀ p ∈ ps, ∀ key, Table.get? Number.same p s.percentiles = some key →
    ∃ r, rank p (total buckets) = .ok r ∧ LeastReaching buckets r key
  requested : ∀ e ∈ s.percentiles, e.1 ∈ ps ∧ ∃ count, (e.2, count) ∈ buckets
  max : ∃ b ∈ buckets, (∀ c ∈ buckets, c.1.le b.1 = true) ∧ b.1.toBinary64 = .ok s.max

theorem Assembled.followsRule {buckets : List Bucket} {ps : List Number} {s : Summary}
    (h : Assembled buckets ps s) (hnan : ∀ b ∈ buckets, b.1.isNan = false)
    (hpos : ∀ b ∈ buckets, 0 < b.2) : FollowsRule buckets ps s := by
  have hperm := Arrangement.arrange_perm buckets
  have hasc := Arrangement.pairwise_le_arrange hnan
  have hnan' : ∀ b ∈ Arrangement.arrange buckets, b.1.isNan = false :=
    fun b hb => hnan b (hperm.subset hb)
  have hentry : ∀ p ∈ ps, Table.contains Number.same p s.percentiles = true ↔
      inRange p = true ∧ ∃ r, rank p (total buckets) = .ok r ∧ r ≤ total buckets := by
    intro p hp
    rw [Table.contains_eq_isSome, h.get?_percentiles hp, Option.isSome_iff_exists]
    simp only [keyOf_eq_some_iff]
    constructor
    · rintro ⟨key, hrange, r, hr, hkey⟩
      exact ⟨hrange, r, hr, (h.isSome_keyAtRank hpos r).mp (Option.isSome_of_eq_some hkey)⟩
    · rintro ⟨hrange, r, hr, hle⟩
      obtain ⟨key, hkey⟩ := Option.isSome_iff_exists.mp ((h.isSome_keyAtRank hpos r).mpr hle)
      exact ⟨key, hrange, r, hr, hkey⟩
  refine ⟨?_, hentry, ?_, ?_, ?_⟩
  · intro p hp hrange
    rcases exists_rank_of_resolve h.resolved hp hrange with hheld | hrank
    · obtain ⟨-, r, hr, -⟩ := (hentry p hp).mp hheld
      exact ⟨r, hr⟩
    · exact hrank
  · intro p hp key hkey
    rw [h.get?_percentiles hp, keyOf_eq_some_iff] at hkey
    obtain ⟨-, r, hr, hkey⟩ := hkey
    exact ⟨r, hr, leastReaching_of_arrange hnan hpos hkey⟩
  · intro e he
    obtain ⟨hp, hkey⟩ := h.mem_percentiles he
    rw [keyOf_eq_some_iff] at hkey
    obtain ⟨-, r, -, hkey⟩ := hkey
    exact ⟨hp, (leastReaching_of_arrange hnan hpos hkey).held⟩
  · obtain ⟨b, hb, hmax, hx⟩ := exists_greatest hasc hnan' h.arrange_ne_nil h.greatest
    exact ⟨b, hperm.subset hb, fun c hc => hmax c (hperm.symm.subset hc), hx⟩

/-- A returned summary follows the rule on what was retained. -/
theorem followsRule_of_compute {visits : List Bucket} {ps : List Number} {exclude : Exclusion}
    {s : Summary} (hnan : ∀ b ∈ retained exclude visits, b.1.isNan = false)
    (h : (compute visits ps exclude).outcome = .ok (some s)) :
    FollowsRule (retained exclude visits) ps s := by
  obtain ⟨-, -, hassembled⟩ := compute_eq_ok_iff.mp h
  exact (ofRetained_eq_ok_some_iff.mp hassembled).followsRule hnan
    fun _ hb => count_pos_of_mem_retained hb

/-- Seven twice and three once, beside an excluded key and an empty bucket. -/
theorem followsRule_of_compute_excluding : ∃ s,
    (compute [(.int 7, 2), (.int 9, 4), (.int 5, 0), (.int 3, 1)] [.int 0, .float .half]
      (.related .ge (.int 9))).outcome = .ok (some s)
    ∧ FollowsRule [(.int 7, 2), (.int 3, 1)] [.int 0, .float .half] s := by
  have hretained : retained (.related .ge (.int 9))
      [(.int 7, 2), (.int 9, 4), (.int 5, 0), (.int 3, 1)] = [(.int 7, 2), (.int 3, 1)] := by
    decide +kernel
  have harrange : Arrangement.arrange [(.int 7, 2), (.int 3, 1)] = [(.int 3, 1), (.int 7, 2)] :=
    Arrangement.arrange_eq (by decide) (by decide +kernel) (by decide +kernel) (.swap ..)
  have hexists : ∃ s, ofRetained [(.int 7, 2), (.int 3, 1)] [.int 0, .float .half]
      = .ok (some s) := by
    refine exists_summary ?_
    simp only [ofRetained, harrange]
    decide +kernel
  obtain ⟨s, hs⟩ := hexists
  have hcompute : (compute [(.int 7, 2), (.int 9, 4), (.int 5, 0), (.int 3, 1)]
      [.int 0, .float .half] (.related .ge (.int 9))).outcome = .ok (some s) := by
    refine compute_eq_ok_iff.mpr ⟨fun b _ => ⟨_, rfl⟩, noticeable_of_lt (by decide +kernel), ?_⟩
    rw [hretained, hs]
  refine ⟨s, hcompute, ?_⟩
  rw [← hretained]
  exact followsRule_of_compute (by rw [hretained]; decide) hcompute

end Summary
end LoadReport
