import LoadReport.Histogram.Basic
import LoadReport.Sorting.Runs

/-!
# Arranging buckets by key

Buckets whose keys are numbers proper are sorted ascending, and buckets
with equal keys keep their order.

A NaN among the keys is neither below nor above any other, so there is no
ascending order to arrange them in. Then the arrangement is what the sort by
natural runs makes of that comparison. In particular a list that is
ascending up to NaN keys at its end stays as it is.
-/

namespace LoadReport
namespace Arrangement

/-- The key of the first is below the key of the second. -/
def isBelow (a b : Bucket) : Bool := a.1.lt b.1

/-- The arrangement of buckets by key. -/
def arrange (buckets : List Bucket) : List Bucket :=
  if buckets.any fun b => b.1.isNan then Sorting.sort isBelow buckets
  else visitOrder buckets

theorem arrange_of_no_nan {buckets : List Bucket} (h : ∀ b ∈ buckets, b.1.isNan = false) :
    arrange buckets = visitOrder buckets := by
  have hany : (buckets.any fun b => b.1.isNan) = false := by simpa using h
  simp [arrange, hany]

theorem arrange_perm (buckets : List Bucket) : (arrange buckets).Perm buckets := by
  unfold arrange
  split
  · exact Sorting.sort_perm _ _
  · exact visitOrder_perm _

end Arrangement
end LoadReport
