import LoadReport.Proofs.Histogram.Traversal
import LoadReport.Summary.Basic

/-!
# Ascending buckets

Statistics read buckets in the order of their keys. Away from NaN this order
is what one expects: the arrangement is ascending by value, its last bucket
has a greatest key, and if the keys are different numbers then no other
ascending arrangement exists (`arrange_eq`), so that it does not depend on
where the buckets stood.
-/

namespace LoadReport
namespace Arrangement

theorem pairwise_le_arrange {buckets : List Bucket} (h : ∀ b ∈ buckets, b.1.isNan = false) :
    (arrange buckets).Pairwise fun a b => a.1.le b.1 = true := by
  rw [arrange_of_no_nan h]
  exact pairwise_le_visitOrder h

/-- The arrangement is the one ascending list of buckets with different
numbers as keys. -/
theorem arrange_eq {buckets ascending : List Bucket} (hnan : ∀ b ∈ buckets, b.1.isNan = false)
    (hdistinct : buckets.Pairwise fun a b => a.1.same b.1 = false)
    (hasc : ascending.Pairwise fun a b => a.1.le b.1 = true) (hperm : buckets.Perm ascending) :
    arrange buckets = ascending := by
  have harrange := arrange_perm buckets
  have hdistinct' : (arrange buckets).Pairwise fun a b => a.1.same b.1 = false :=
    hdistinct.perm harrange.symm fun hab => by rwa [Number.same_comm]
  exact eq_of_perm_of_ascending hdistinct' (pairwise_le_arrange hnan) hasc (harrange.trans hperm)

theorem arrange_singleton (b : Bucket) : arrange [b] = [b] :=
  List.perm_singleton.mp (arrange_perm [b])

end Arrangement

namespace Summary

/-- The last of ascending buckets has a greatest key. -/
theorem exists_greatest {ascending : List Bucket} {x : Binary64}
    (hasc : ascending.Pairwise fun a b => a.1.le b.1 = true)
    (hnan : ∀ b ∈ ascending, b.1.isNan = false) (hne : ascending ≠ [])
    (h : greatest ascending = .ok x) :
    ∃ b ∈ ascending, (∀ c ∈ ascending, c.1.le b.1 = true) ∧ b.1.toBinary64 = .ok x := by
  obtain ⟨front, b, rfl⟩ := (List.eq_nil_or_concat ascending).resolve_left hne
  rw [List.concat_eq_append] at *
  have hb : b ∈ front ++ [b] := List.mem_append_right _ (List.mem_singleton_self b)
  rw [greatest, List.getLastD_concat] at h
  refine ⟨b, hb, fun c hc => ?_, h⟩
  rcases List.mem_append.mp hc with hfront | hlast
  · exact (List.pairwise_append.mp hasc).2.2 c hfront b (List.mem_singleton_self b)
  · obtain rfl := List.mem_singleton.mp hlast
    exact Number.le_refl (hnan c hb)

end Summary
end LoadReport
