import LoadReport.Proofs.Histogram.Weight

/-!
# What a traversal passes

`visitOrder` is a stable sort by the listing order. Three facts are used about
it beyond those that come with every sort:

- a selection of buckets may be made before it or after it
  (`filter_visitOrder`). It is not enough for this that the sorted list is a
  permutation: buckets with equal keys must not change places;
- so the NaN buckets, which the listing order does not tell apart, come in the
  order in which they were added (`filter_isNan_visitOrder`);
- buckets whose keys are different numbers have one ascending arrangement,
  whatever order they come from (`eq_of_perm_of_ascending`).

A visitor that never answers `false` sees all of it, so what it computes is a
fold (`traverse_of_true`).
-/

namespace LoadReport

open Bucket

/-! ## Stable sorts -/

section Stable

variable {α : Type} {le : α → α → Bool}

/-- The first of a list is sorted in behind all that belong before it and in
front of all others. -/
theorem mergeSort_cons_eq (trans : ∀ a b c, le a b = true → le b c = true → le a c = true)
    (total : ∀ a b, (le a b || le b a) = true) (a : α) (xs : List α) :
    (a :: xs).mergeSort le
      = ((xs.mergeSort le).filter fun b => !le a b) ++ a :: (xs.mergeSort le).filter (le a) := by
  obtain ⟨front, back, hsplit, hrest, hfront⟩ := List.mergeSort_cons trans total a xs
  have hsorted := List.pairwise_mergeSort trans total (a :: xs)
  rw [hsplit] at hsorted
  have hback : ∀ b ∈ back, le a b = true :=
    (List.pairwise_cons.mp (List.pairwise_append.mp hsorted).2.1).1
  have hnone : front.filter (le a) = [] := by
    rw [List.filter_eq_nil_iff]
    intro b hb
    simpa using hfront b hb
  have hnone' : (back.filter fun b => !le a b) = [] := by
    rw [List.filter_eq_nil_iff]
    intro b hb
    simp [hback b hb]
  rw [hsplit, hrest, List.filter_append, List.filter_append, hnone, hnone',
    List.filter_eq_self.mpr hback, List.filter_eq_self.mpr hfront, List.append_nil, List.nil_append]

/-- A selection may be sorted, or made of what is sorted. -/
theorem filter_mergeSort (trans : ∀ a b c, le a b = true → le b c = true → le a c = true)
    (total : ∀ a b, (le a b || le b a) = true) (p : α → Bool) (xs : List α) :
    (xs.mergeSort le).filter p = (xs.filter p).mergeSort le := by
  induction xs with
  | nil => simp
  | cons a xs ih =>
      cases hp : p a with
      | false =>
          obtain ⟨front, back, hsplit, hrest, -⟩ := List.mergeSort_cons trans total a xs
          have hout : ¬ p a = true := by simp [hp]
          rw [List.filter_cons_of_neg hout, ← ih, hsplit, hrest, List.filter_append,
            List.filter_append, List.filter_cons_of_neg hout]
      | true =>
          have hswap : ∀ q : α → Bool, ((xs.mergeSort le).filter q).filter p
              = ((xs.filter p).mergeSort le).filter q := by
            intro q
            rw [← ih, List.filter_filter, List.filter_filter]
            simp only [Bool.and_comm]
          rw [List.filter_cons_of_pos hp, mergeSort_cons_eq trans total,
            mergeSort_cons_eq trans total, List.filter_append, List.filter_cons_of_pos hp, hswap,
            hswap]

end Stable

/-! ## The order of a traversal -/

/-- A selection of buckets is traversed as it is in the whole. -/
theorem filter_visitOrder (p : Bucket → Bool) (buckets : Table Number Int) :
    (visitOrder buckets).filter p = visitOrder (buckets.filter p) :=
  filter_mergeSort (fun a b c => Number.sortsBefore_trans a.1 b.1 c.1)
    (fun a b => Number.sortsBefore_total a.1 b.1) p buckets

theorem filter_isNan_visitOrder (buckets : Table Number Int) :
    (visitOrder buckets).filter (fun b => b.1.isNan) = buckets.filter fun b => b.1.isNan := by
  rw [filter_visitOrder]
  refine List.mergeSort_of_pairwise ?_
  rw [List.pairwise_filter]
  exact List.pairwise_of_forall fun _ _ _ hb => Number.sortsBefore_of_isNan hb

/-- Away from NaN a traversal is ascending by value. -/
theorem pairwise_le_visitOrder {buckets : List Bucket} (h : ∀ b ∈ buckets, b.1.isNan = false) :
    (visitOrder buckets).Pairwise fun a b => a.1.le b.1 = true := by
  refine (pairwise_visitOrder buckets).imp_of_mem fun _ hb hab => ?_
  exact Number.le_of_sortsBefore (h _ ((visitOrder_perm buckets).subset hb)) hab

/-- Two ascending arrangements of buckets with different numbers as keys are
one: of two such buckets only one may come first. -/
theorem eq_of_perm_of_ascending {xs ys : List Bucket}
    (hdistinct : xs.Pairwise fun a b => a.1.same b.1 = false)
    (hxs : xs.Pairwise fun a b => a.1.le b.1 = true)
    (hys : ys.Pairwise fun a b => a.1.le b.1 = true) (h : xs.Perm ys) : xs = ys := by
  have hdistinct' : ys.Pairwise fun a b => a.1.same b.1 = false :=
    hdistinct.perm h fun hab => by rwa [Number.same_comm]
  refine h.eq_of_pairwise (fun a b _ _ hab hba => ?_) (hxs.and hdistinct) (hys.and hdistinct')
  obtain ⟨hle, hdiff⟩ := hab
  rw [Number.same_of_le_of_le hle hba.1] at hdiff
  cases hdiff

theorem traverse_of_true {σ : Type} (next : σ → Bucket → σ) (state : σ) (buckets : List Bucket) :
    Histogram.traverse (fun s b => (next s b, true)) state buckets = buckets.foldl next state := by
  induction buckets generalizing state with
  | nil => rfl
  | cons b rest ih => exact ih (next state b)

theorem foldl_add_counts (buckets : List Bucket) (start : Int) :
    buckets.foldl (fun sum b => sum + b.2) start = start + weigh (fun _ => 1) buckets := by
  induction buckets generalizing start with
  | nil => simp
  | cons b rest ih =>
      rw [List.foldl_cons, ih, weigh_cons]
      omega

end LoadReport
