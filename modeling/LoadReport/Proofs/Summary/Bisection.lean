import LoadReport.Proofs.Summary.Rank
import LoadReport.Sorting.Search

/-!
# Finding a rank by halving

`keyAtRank` walks over the buckets and adds up their counts. The same key is
found by looking up positions in the list of cumulative counts and halving the
interval in between, which is how a search in a sorted list goes.

What the walk leaves open is where it stops: it has no positions at all. A
search has one, and it may be one behind the last bucket. So it is shown of the
search that it ends in the list or right behind it, and that the walk has a key
exactly in the first case (`keyAtRank_eq_getElem?`). For this the cumulative
counts have to ascend, as those of counts that are not negative do.
-/

namespace LoadReport

open Bucket

namespace Sorting

variable {passes : Nat → Bool} {lo hi : Nat}

/-- Halving finds the boundary of a test that fails from some position on. -/
theorem boundary_spec (middle : Middle)
    (hdown : ∀ i j, i ≤ j → passes j = true → passes i = true) (h : lo ≤ hi) :
    (∀ i, lo ≤ i → i < boundary middle passes lo hi → passes i = true)
      ∧ ∀ i, boundary middle passes lo hi ≤ i → i < hi → passes i = false := by
  fun_induction boundary middle passes lo hi with
  | case1 lo hi hlt mid passed ih =>
      have hmid : mid < hi := by
        have := middle.position_lt lo (by omega : 0 < hi - lo)
        omega
      obtain ⟨hbelow, habove⟩ := ih hmid
      refine ⟨fun i hlo hi' => ?_, habove⟩
      rcases Nat.lt_or_ge mid i with hright | hleft
      · exact hbelow i hright hi'
      · exact hdown i mid hleft passed
  | case2 lo hi hlt mid failed ih =>
      obtain ⟨hbelow, habove⟩ := ih (middle.le_position lo (hi - lo))
      refine ⟨hbelow, fun i hlo hi' => ?_⟩
      rcases Nat.lt_or_ge i mid with hleft | hright
      · exact habove i hlo hleft
      · cases hpasses : passes i with
        | false => rfl
        | true => exact absurd (hdown mid i hright hpasses) failed
  | case3 lo hi hge => exact ⟨fun i hlo hi' => by omega, fun i hlo hi' => by omega⟩

end Sorting

namespace Percentile

variable {buckets : List Bucket} {rank : Int}

/-- The cumulative count at a position, the bucket there included. -/
def cumulative (buckets : List Bucket) (i : Nat) : Int := total (buckets.take (i + 1))

/-- The first position at which the cumulative count reaches a rank, by
halving. -/
def rankIndex (rank : Int) (buckets : List Bucket) : Nat :=
  Sorting.boundary .upper (fun i => decide (cumulative buckets i < rank)) 0 buckets.length

theorem rankIndex_le (rank : Int) (buckets : List Bucket) :
    rankIndex rank buckets ≤ buckets.length :=
  Sorting.boundary_le .upper _ (Nat.zero_le _)

theorem cumulative_le_of_le (hcount : ∀ b ∈ buckets, 0 ≤ b.2) {i j : Nat} (h : i ≤ j) :
    cumulative buckets i ≤ cumulative buckets j := by
  have hsplit : buckets.take (j + 1)
      = buckets.take (i + 1) ++ (buckets.drop (i + 1)).take (j - i) := by
    rw [← List.take_add]
    congr 1
    omega
  have hrest : 0 ≤ total ((buckets.drop (i + 1)).take (j - i)) :=
    total_nonneg fun b hb => hcount b (List.mem_of_mem_drop (List.mem_of_mem_take hb))
  unfold cumulative
  rw [hsplit, total_append]
  omega

theorem rankIndex_spec (rank : Int) (hcount : ∀ b ∈ buckets, 0 ≤ b.2) :
    (∀ i, i < rankIndex rank buckets → cumulative buckets i < rank)
      ∧ ∀ i, rankIndex rank buckets ≤ i → i < buckets.length → rank ≤ cumulative buckets i := by
  have hdown : ∀ i j, i ≤ j → decide (cumulative buckets j < rank) = true →
      decide (cumulative buckets i < rank) = true := by
    intro i j hij hj
    have hle := cumulative_le_of_le hcount hij
    simp only [decide_eq_true_eq] at hj ⊢
    omega
  obtain ⟨hbelow, habove⟩ := Sorting.boundary_spec .upper hdown (Nat.zero_le buckets.length)
  refine ⟨fun i hi => of_decide_eq_true (hbelow i (Nat.zero_le i) hi), fun i hi hlt => ?_⟩
  have hfails := of_decide_eq_false (habove i hi hlt)
  omega

/-- The search ends at the position that is reached, if the one before is not. -/
theorem rankIndex_eq (hcount : ∀ b ∈ buckets, 0 ≤ b.2) {i : Nat} (hi : i ≤ buckets.length)
    (hbefore : i = 0 ∨ cumulative buckets (i - 1) < rank)
    (hreached : i = buckets.length ∨ rank ≤ cumulative buckets i) :
    rankIndex rank buckets = i := by
  obtain ⟨hbelow, habove⟩ := rankIndex_spec rank hcount
  have hle := rankIndex_le rank buckets
  refine Nat.le_antisymm (Nat.le_of_not_lt fun hlate => ?_) (Nat.le_of_not_lt fun hearly => ?_)
  · have hshort := hbelow i hlate
    omega
  · have hfound := habove _ (Nat.le_refl _) (by omega)
    have hmono := cumulative_le_of_le hcount
      (show rankIndex rank buckets ≤ i - 1 by omega)
    omega

/-- **The walk finds what halving finds.** -/
theorem keyAtRank_eq_getElem? (hpos : ∀ b ∈ buckets, 0 < b.2) :
    keyAtRank rank 0 buckets = (buckets[rankIndex rank buckets]?).map (·.1) := by
  have hcount : ∀ b ∈ buckets, 0 ≤ b.2 := fun b hb => Int.le_of_lt (hpos b hb)
  cases hkey : keyAtRank rank 0 buckets with
  | none =>
      have hend : rankIndex rank buckets = buckets.length := by
        refine rankIndex_eq hcount (Nat.le_refl _) ?_ (Or.inl rfl)
        by_cases hempty : buckets = []
        · exact Or.inl (List.length_eq_zero_iff.mpr hempty)
        · have hshort : (keyAtRank rank 0 buckets).isSome = true ↔ rank ≤ 0 + total buckets :=
            isSome_keyAtRank hpos hempty
          rw [hkey, Option.isSome_none] at hshort
          right
          rw [cumulative, List.take_of_length_le (by omega)]
          simpa using hshort
      rw [hend, List.getElem?_eq_none (Nat.le_refl _)]
      rfl
  | some key =>
      obtain ⟨front, b, back, rfl, rfl, hreached, hbefore⟩ := exists_split_of_keyAtRank hkey
      rw [Int.zero_add] at hreached hbefore
      have hindex : rankIndex rank (front ++ [b] ++ back) = front.length := by
        refine rankIndex_eq hcount (by simp) ?_ (Or.inr ?_)
        · by_cases hfront : front = []
          · exact Or.inl (List.length_eq_zero_iff.mpr hfront)
          · right
            rw [cumulative, Nat.sub_add_cancel (List.length_pos_iff.mpr hfront),
              List.append_assoc, List.take_left']
            · exact hbefore hfront
            · rfl
        · rwa [cumulative, List.take_left' (by simp)]
      rw [hindex, List.append_assoc, List.getElem?_append_right (Nat.le_refl _), Nat.sub_self]
      rfl

end Percentile
end LoadReport
