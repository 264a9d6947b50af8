import LoadReport.Proofs.Histogram.Samples
import LoadReport.Proofs.Summary.Rank

/-!
# The element at a rank

The percentile rule finds a key by counting samples. Sorting the samples and
taking the element at a place is the plain way to the same key, and here the
two are put together.

In a sorted list more than `i` elements are at most the one at index `i`
(`lt_countP_of_getElem?`), and no more than `i` are at most anything below it
(`countP_le_of_getElem?`). So the least key that reaches a rank is the element
at that place (`same_of_leastReaching`). Rank zero asks for the first element,
as rank one does: a count of zero is reached by every key, but the least of
them is still the first.
-/

namespace LoadReport

open Bucket

/-! ## Places in a sorted list -/

theorem exists_split_of_getElem? {α : Type} {xs : List α} {i : Nat} {x : α}
    (h : xs[i]? = some x) : ∃ front back, xs = (front ++ [x]) ++ back ∧ front.length = i := by
  obtain ⟨hi, rfl⟩ := List.getElem?_eq_some_iff.mp h
  refine ⟨xs.take i, xs.drop (i + 1), ?_, List.length_take_of_le (Nat.le_of_lt hi)⟩
  rw [List.append_assoc, List.singleton_append, List.getElem_cons_drop, List.take_append_drop]

section Sorted

variable {sorted : List Number} {i : Nat} {x : Number}

theorem lt_countP_of_getElem? (hasc : sorted.Pairwise fun a b => a.le b = true)
    (hnan : x.isNan = false) (h : sorted[i]? = some x) : i < sorted.countP fun k => k.le x := by
  obtain ⟨front, back, rfl, rfl⟩ := exists_split_of_getElem? h
  have hfront := (List.pairwise_append.mp (List.pairwise_append.mp hasc).1).2.2
  have hall : (front ++ [x]).countP (fun k => k.le x) = (front ++ [x]).length := by
    refine List.countP_eq_length.mpr fun k hk => ?_
    rcases List.mem_append.mp hk with hk | hk
    · exact hfront k hk x (List.mem_singleton_self x)
    · obtain rfl := List.mem_singleton.mp hk
      exact Number.le_refl hnan
  rw [List.countP_append, hall, List.length_append, List.length_singleton]
  omega

/-- Only the elements before an index are at most a number below the one
there. -/
theorem countP_le_of_getElem? (hasc : sorted.Pairwise fun a b => a.le b = true)
    (hnan : x.isNan = false) (h : sorted[i]? = some x) {key : Number} (hkey : x.le key = false) :
    (sorted.countP fun k => k.le key) ≤ i := by
  obtain ⟨front, back, rfl, rfl⟩ := exists_split_of_getElem? h
  rw [List.append_assoc] at hasc ⊢
  have hback := (List.pairwise_append.mp hasc).2.1
  have hnone : ([x] ++ back).countP (fun k => k.le key) = 0 := by
    refine List.countP_eq_zero.mpr fun k hk => ?_
    have hxk : x.le k = true := by
      rcases List.mem_append.mp hk with hk | hk
      · obtain rfl := List.mem_singleton.mp hk
        exact Number.le_refl hnan
      · exact (List.pairwise_append.mp hback).2.2 x (List.mem_singleton_self x) k hk
    rw [Number.le_eq_false_of_le hxk hkey]
    exact Bool.false_ne_true
  rw [List.countP_append, hnone, Nat.add_zero]
  exact List.countP_le_length

end Sorted

namespace Percentile

/-- The element of a sorted list that has a rank; below rank one it is the
first. -/
def atRank? {α : Type} (sorted : List α) (r : Int) : Option α := sorted[(max r 1 - 1).toNat]?

theorem exists_atRank? {α : Type} {sorted : List α} {r : Int} (hpos : 0 < sorted.length)
    (hle : r ≤ sorted.length) : ∃ x, atRank? sorted r = some x := by
  have hplace : (max r 1 - 1).toNat < sorted.length := by omega
  exact ⟨_, List.getElem?_eq_getElem hplace⟩

/-- **The least key that reaches a rank is the element that has it.** -/
theorem same_of_leastReaching {buckets : List Bucket} {samples sorted : List Number}
    {r : Int} {key x : Number} (hrep : Represents buckets samples)
    (hnan : ∀ y ∈ samples, y.isNan = false) (hperm : sorted.Perm samples)
    (hasc : sorted.Pairwise fun a b => a.le b = true) (h : LeastReaching buckets r key)
    (hx : atRank? sorted r = some x) : key.same x = true := by
  have hxmem : x ∈ samples := by
    unfold atRank? at hx
    exact hperm.subset (List.mem_of_getElem? hx)
  have hcount : ∀ k : Number, countWhere (fun y => y.le k) buckets
      = sorted.countP fun y => y.le k := by
    intro k
    rw [hrep.countWhere_eq (byValue_le k), hperm.countP_eq]
  have hkeymem : key ∈ samples := by
    obtain ⟨count, hmem⟩ := h.held
    exact hrep.key_mem _ hmem
  have hplace : (((max r 1 - 1).toNat : Nat) : Int) = max r 1 - 1 := by omega
  refine Number.same_of_le_of_le ?_ ?_
  · obtain ⟨b, hb, hsame⟩ := hrep.exists_bucket hxmem (hnan x hxmem)
    have hreach := lt_countP_of_getElem? hasc (hnan x hxmem) hx
    have hle : key.le b.1 = true := by
      refine h.least b hb ?_
      have hcongr : (fun k : Number => k.le b.1) = fun k => k.le x :=
        funext fun k => Number.le_congr_right hsame k
      rw [hcongr, hcount]
      omega
    rwa [Number.le_congr_right hsame] at hle
  · cases hxk : x.le key with
    | true => rfl
    | false =>
        exfalso
        have hshort := countP_le_of_getElem? hasc (hnan x hxmem) hx hxk
        have hreaches := h.reaches
        rw [hcount] at hreaches
        have hself : 0 < sorted.countP fun y => y.le key :=
          List.countP_pos_iff.mpr
            ⟨key, hperm.symm.subset hkeymem, Number.le_refl (hnan key hkeymem)⟩
        omega

end Percentile

end LoadReport
