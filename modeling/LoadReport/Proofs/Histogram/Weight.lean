import Mathlib.Algebra.BigOperators.Group.List.Basic
import Mathlib.Algebra.Group.Int.Defs
import LoadReport.Histogram.Basic
import LoadReport.Proofs.Number.Order
import LoadReport.Proofs.Table.Keys

/-!
# Weights of buckets

Everything that statistics ask of a list of buckets is a sum over it: how
many samples there are, how many of them are at most a key, what the samples
amount to. `weigh` is such a sum, a weight of the key times the count of
each bucket, and `countWhere` is the case of a weight that is zero or one.

**Weights by value.** A weight is `ByValue` if it does not tell numbers
apart that are the same. Such a weight does not see how samples are
distributed over buckets: counting further occurrences of a key adds the
weight of that key for each of them, whatever form the key of its bucket has
(`weigh_counted_update`). All facts about recorders that are about amounts
follow from this one.
-/

namespace LoadReport

def counted (t : Table Number Nat) : List Bucket := t.map fun entry => (entry.1, (entry.2 : Int))

namespace Bucket

/-- The counts of the buckets, each taken as often as its key weighs. -/
def weigh (weight : Number → Int) (buckets : List Bucket) : Int :=
  (buckets.map fun b => weight b.1 * b.2).sum

def total (buckets : List Bucket) : Int := (buckets.map (·.2)).sum

/-- The number of samples whose keys pass a test. -/
def countWhere (test : Number → Bool) (buckets : List Bucket) : Int :=
  ((buckets.filter fun b => test b.1).map (·.2)).sum

/-- The weight that only asks whether a key passes a test. -/
def indicator (test : Number → Bool) (key : Number) : Int := if test key then 1 else 0

def ByValue (weight : Number → Int) : Prop :=
  ∀ {a b : Number}, a.same b = true → weight a = weight b

theorem byValue_const (n : Int) : ByValue fun _ => n := fun _ => rfl

theorem byValue_same (key : Number) : ByValue (indicator fun k => k.same key) := fun h => by
  simp only [indicator, Number.same_congr_left h]

theorem byValue_le (key : Number) : ByValue (indicator fun k => k.le key) := fun h => by
  simp only [indicator, Number.le_congr_left h]

/-! ## Sums over lists of buckets -/

variable {weight : Number → Int} {test : Number → Bool} {xs ys : List Bucket}

@[simp] theorem weigh_nil (weight : Number → Int) : weigh weight [] = 0 := rfl

@[simp] theorem weigh_cons (weight : Number → Int) (b : Bucket) (xs : List Bucket) :
    weigh weight (b :: xs) = weight b.1 * b.2 + weigh weight xs := by
  simp [weigh]

theorem weigh_append (weight : Number → Int) (xs ys : List Bucket) :
    weigh weight (xs ++ ys) = weigh weight xs + weigh weight ys := by
  simp [weigh]

theorem weigh_perm (h : xs.Perm ys) : weigh weight xs = weigh weight ys :=
  (h.map _).sum_eq

theorem weigh_one (xs : List Bucket) : weigh (fun _ => 1) xs = total xs := by
  simp [weigh, total]

theorem total_perm (h : xs.Perm ys) : total xs = total ys := by
  rw [← weigh_one, ← weigh_one, weigh_perm h]

theorem total_append (xs ys : List Bucket) : total (xs ++ ys) = total xs + total ys := by
  rw [← weigh_one, weigh_append, weigh_one, weigh_one]

theorem ne_nil_of_total_pos (h : 0 < total xs) : xs ≠ [] := by
  rintro rfl
  exact Int.lt_irrefl 0 h

theorem countWhere_eq_weigh (test : Number → Bool) (xs : List Bucket) :
    countWhere test xs = weigh (indicator test) xs := by
  induction xs with
  | nil => rfl
  | cons b xs ih =>
      rw [weigh_cons, ← ih]
      unfold countWhere indicator
      cases h : test b.1 <;> simp [h]

theorem countWhere_perm (h : xs.Perm ys) : countWhere test xs = countWhere test ys := by
  rw [countWhere_eq_weigh, countWhere_eq_weigh, weigh_perm h]

theorem countWhere_append (test : Number → Bool) (xs ys : List Bucket) :
    countWhere test (xs ++ ys) = countWhere test xs + countWhere test ys := by
  rw [countWhere_eq_weigh, countWhere_eq_weigh, countWhere_eq_weigh, weigh_append]

theorem countWhere_of_forall (h : ∀ b ∈ xs, test b.1 = true) : countWhere test xs = total xs := by
  rw [countWhere, List.filter_eq_self.mpr h, total]

theorem countWhere_of_forall_not (h : ∀ b ∈ xs, test b.1 = false) : countWhere test xs = 0 := by
  have hnone : (xs.filter fun b => test b.1) = [] :=
    List.filter_eq_nil_iff.mpr fun b hb => by simp [h b hb]
  rw [countWhere, hnone]
  rfl

/-! ## Counts of one sign -/

theorem total_nonneg (h : ∀ b ∈ xs, 0 ≤ b.2) : 0 ≤ total xs := by
  induction xs with
  | nil => exact Int.le_refl 0
  | cons b xs ih =>
      have hb := h b (List.mem_cons_self ..)
      have hxs := ih fun c hc => h c (List.mem_cons_of_mem _ hc)
      simp only [total, List.map_cons, List.sum_cons] at hxs ⊢
      omega

theorem countWhere_nonneg (test : Number → Bool) (h : ∀ b ∈ xs, 0 ≤ b.2) :
    0 ≤ countWhere test xs :=
  total_nonneg fun b hb => h b (List.mem_filter.mp hb).1

theorem countWhere_pos_iff (h : ∀ b ∈ xs, 0 < b.2) :
    0 < countWhere test xs ↔ (xs.any fun b => test b.1) = true := by
  induction xs with
  | nil => simp [countWhere]
  | cons b xs ih =>
      have hb := h b (List.mem_cons_self ..)
      have hxs := ih fun c hc => h c (List.mem_cons_of_mem _ hc)
      have hnonneg := countWhere_nonneg test fun c hc =>
        Int.le_of_lt (h c (List.mem_cons_of_mem b hc))
      rw [List.any_cons, Bool.or_eq_true, ← hxs]
      unfold countWhere at *
      rw [List.filter_cons]
      cases htest : test b.1 with
      | true =>
          simp only [if_true, List.map_cons, List.sum_cons, true_or, iff_true]
          omega
      | false => simp

theorem countWhere_le_total (test : Number → Bool) (h : ∀ b ∈ xs, 0 ≤ b.2) :
    countWhere test xs ≤ total xs := by
  induction xs with
  | nil => exact Int.le_refl 0
  | cons b xs ih =>
      have hb := h b (List.mem_cons_self ..)
      have hxs := ih fun c hc => h c (List.mem_cons_of_mem _ hc)
      unfold countWhere total at *
      rw [List.filter_cons]
      split <;> simp only [List.map_cons, List.sum_cons] <;> omega

theorem weigh_congr {weight' : Number → Int} (h : ∀ b ∈ xs, weight b.1 = weight' b.1) :
    weigh weight xs = weigh weight' xs :=
  congrArg List.sum (List.map_congr_left fun b hb => by rw [h b hb])

theorem weigh_const (n : Int) (xs : List Bucket) : weigh (fun _ => n) xs = n * total xs := by
  induction xs with
  | nil => exact (Int.mul_zero n).symm
  | cons b xs ih =>
      rw [weigh_cons, ih, ← Int.mul_add]
      rfl

theorem weigh_mono {weight' : Number → Int} (hnonneg : ∀ b ∈ xs, 0 ≤ b.2)
    (h : ∀ b ∈ xs, weight b.1 ≤ weight' b.1) : weigh weight xs ≤ weigh weight' xs := by
  induction xs with
  | nil => exact Int.le_refl 0
  | cons b xs ih =>
      have hrest := ih (fun c hc => hnonneg c (List.mem_cons_of_mem _ hc))
        fun c hc => h c (List.mem_cons_of_mem _ hc)
      have hb := Int.mul_le_mul_of_nonneg_right (h b (List.mem_cons_self ..))
        (hnonneg b (List.mem_cons_self ..))
      rw [weigh_cons, weigh_cons]
      exact Int.add_le_add hb hrest

/-- Where as many samples have a number as elsewhere, a bucket shows it. -/
theorem exists_same_of_countWhere_eq (hxs : ∀ b ∈ xs, 0 < b.2) (hys : ∀ b ∈ ys, 0 < b.2)
    {b : Bucket} (hb : b ∈ xs) (hnan : b.1.isNan = false)
    (h : countWhere (fun k => k.same b.1) xs = countWhere (fun k => k.same b.1) ys) :
    ∃ c ∈ ys, c.1.same b.1 = true := by
  have hself : b.1.same b.1 = true := Number.same_refl hnan
  have hsome : 0 < countWhere (fun k => k.same b.1) xs :=
    (countWhere_pos_iff hxs).mpr (List.any_eq_true.mpr ⟨b, hb, hself⟩)
  rw [h] at hsome
  exact List.any_eq_true.mp ((countWhere_pos_iff hys).mp hsome)

end Bucket

/-! ## Counting further occurrences -/

open Bucket

/-- **Counting adds.** Counting `count` further occurrences of a key adds
its weight that many times, under every weight by value. -/
theorem weigh_counted_update {weight : Number → Int} (hweight : ByValue weight) (key : Number)
    (count : Nat) (t : Table Number Nat) :
    weigh weight (counted (Table.update Number.same key (fun old => old.getD 0 + count) t))
      = weigh weight (counted t) + weight key * count := by
  induction t with
  | nil => simp [Table.update, counted]
  | cons entry rest ih =>
      obtain ⟨k, n⟩ := entry
      unfold Table.update
      cases h : k.same key with
      | true =>
          simp only [counted, if_true, List.map_cons, weigh_cons, Option.getD_some, hweight h]
          push_cast
          rw [Int.mul_add]
          omega
      | false =>
          simp only [counted, Bool.false_eq_true, if_false, List.map_cons, weigh_cons] at ih ⊢
          omega

end LoadReport
