import Mathlib.Algebra.Order.BigOperators.Group.List
import Mathlib.Algebra.Order.Group.Int
import LoadReport.Proofs.Binary64.ExactSum
import LoadReport.Proofs.Binary64.Root

/-!
# Why a checked operation is refused

Each checked operation has few faults, and this file lists them one operation
at a time. The ones that are about meaning and not about magnitude (a zero
divisor, the root of a negative number, infinities of both signs in one sum)
are tied to the operands:

- nothing that is made of squares is below zero, neither their sum
  (`isBelowZero_of_sumOf`) nor its quotient by a count
  (`isBelowZero_of_overCount`), so there always is a root;
- a sum of opposed infinities has a summand of either sign
  (`ExactSum.fault_of_sumBy`), so a sum of squares is not one.
-/

namespace LoadReport
namespace Binary64

/-! ## What is not below zero -/

theorem unitsOrZero_nonneg {x : Binary64} (h : x.isBelowZero = false) : 0 ≤ unitsOrZero x := by
  unfold unitsOrZero
  cases hu : x.units? with
  | none => exact Int.le_refl 0
  | some u => exact units?_nonneg hu h

theorem isBelowZero_ofSignedUnits {n : Int} (h : 0 ≤ n) :
    (ofSignedUnits false n).isBelowZero = false := by
  have hsign : (if n = 0 then false else decide (n < 0)) = false := by
    split
    · rfl
    · exact decide_eq_false (Int.not_lt.mpr h)
  rw [ofSignedUnits, hsign]
  exact isBelowZero_ofUnits_false _ _

theorem isBelowZero_of_sumOf {xs : List Binary64} (h : ∀ x ∈ xs, x.isBelowZero = false)
    {sum : Binary64} (hsum : ExactSum.sumOf xs = .ok sum) : sum.isBelowZero = false := by
  have hbelow : infinite true ∉ xs := fun hmem => nomatch h _ hmem
  have hnonneg : 0 ≤ (xs.map unitsOrZero).sum :=
    List.sum_nonneg (List.forall_mem_map.mpr fun x hx => unitsOrZero_nonneg (h x hx))
  unfold ExactSum.sumOf ExactSum.total at hsum
  simp only [hbelow, decide_false, Bool.and_false, Bool.false_eq_true, if_false] at hsum
  split at hsum
  · obtain rfl := Except.ok.inj hsum
    rfl
  · split at hsum
    · obtain rfl := Except.ok.inj hsum
      rfl
    · obtain rfl := Except.ok.inj hsum
      exact isBelowZero_ofSignedUnits hnonneg

theorem isBelowZero_div {x y : Binary64} {n : Nat} (hx : x.isBelowZero = false)
    (hy : y.units? = some (n : Int)) (hn : 0 < n) : (x.div y).isBelowZero = false := by
  obtain ⟨hr, rfl⟩ := eq_finite_of_units? hy hn
  cases x with
  | nan => rfl
  | infinite negative =>
      cases negative with
      | false => rfl
      | true => cases hx
  | finite negative units hw =>
      rw [div, if_neg (by omega)]
      cases negative with
      | false => exact isBelowZero_ofUnits_false _ _
      | true =>
          have hzero : units = 0 := by simpa [isBelowZero] using hx
          subst hzero
          rw [Nat.zero_mul, ofUnitQuotient]
          simp [roundQuotient_zero hn, ofUnits, unitsLimit_pos, isBelowZero]

theorem isBelowZero_of_square {x y : Binary64} (h : x.square = .ok y) :
    y.isBelowZero = false := by
  unfold square at h
  dsimp only at h
  split at h
  · cases h
  · obtain rfl := Except.ok.inj h
    exact isBelowZero_mul_self x

/-- A count that fits has units. -/
theorem units?_pos_of_fitInt {z : Binary64} {n : Nat} (hn : 0 < n) (h : fitInt n = .ok z) :
    ∃ v : Nat, z.units? = some (v : Int) ∧ 0 < v := by
  have hone : unitsPerOne ≤ roundQuotient (n * unitsPerOne) 1 := by
    refine le_roundQuotient Nat.one_pos (unitsPerOne_eq ▸ hasMantissa_two_pow unitExponent) ?_
    rw [Nat.mul_one]
    exact Nat.le_mul_of_pos_left _ hn
  refine ⟨roundQuotient (n * unitsPerOne) 1, ?_,
    Nat.lt_of_lt_of_le Number.unitsPerOne_pos hone⟩
  rw [units?_of_fitInt h, ← Int.natCast_mul, roundRatio_natCast]

theorem isBelowZero_of_overCount {x y : Binary64} {n : Nat} (hx : x.isBelowZero = false)
    (hn : 0 < n) (h : x.overCount n = .ok y) : y.isBelowZero = false := by
  obtain ⟨z, hz, hy⟩ := Except.bind_eq_ok_iff.mp h
  rw [if_neg (by omega)] at hy
  obtain rfl := Except.ok.inj hy
  obtain ⟨v, hv, hpos⟩ := units?_pos_of_fitInt hn hz
  exact isBelowZero_div hx hv hpos

/-! ## Faults of magnitude -/

theorem eq_intTooLarge_of_fitInt {n : Int} {fault : Fault} (h : fitInt n = .error fault) :
    fault = .intTooLarge := by
  unfold fitInt at h
  dsimp only at h
  split at h
  · cases h
  · exact (Except.error.inj h).symm

theorem eq_quotientTooLarge {m n : Int} {fault : Fault} (hn : n ≠ 0)
    (h : quotient m n = .error fault) : fault = .quotientTooLarge := by
  unfold quotient at h
  rw [if_neg hn] at h
  dsimp only at h
  split at h
  · cases h
  · exact (Except.error.inj h).symm

theorem fitInt_of_overCount_eq_error {x : Binary64} {n : Int} {fault : Fault} (hn : n ≠ 0)
    (h : x.overCount n = .error fault) : fitInt n = .error fault := by
  rcases Except.bind_eq_error_iff.mp h with h | ⟨z, -, h⟩
  · exact h
  · rw [if_neg hn] at h
    cases h

theorem eq_squareTooLarge {x : Binary64} {fault : Fault} (h : x.square = .error fault) :
    fault = .squareTooLarge := by
  unfold square at h
  dsimp only at h
  split at h
  · exact (Except.error.inj h).symm
  · cases h

/-! ## Sums -/

namespace ExactSum

theorem eq_sumTooLarge_of_add {s : ExactSum} {x : Binary64} {fault : Fault}
    (h : s.add x = .error fault) : fault = .sumTooLarge := by
  match x with
  | .nan => cases h
  | .infinite false => cases h
  | .infinite true => cases h
  | .finite negative units hr =>
      unfold ExactSum.add at h
      dsimp only at h
      split at h
      · cases h
      · exact (Except.error.inj h).symm

theorem eq_opposedInfinities_of_total {s : ExactSum} {fault : Fault}
    (h : s.total = .error fault) :
    fault = .opposedInfinities ∧ s.sawAbove = true ∧ s.sawBelow = true := by
  unfold total at h
  split at h
  · next hboth => exact ⟨(Except.error.inj h).symm, Bool.and_eq_true_iff.mp hboth⟩
  · split at h
    · cases h
    · split at h
      · cases h
      · split at h <;> cases h

variable {α : Type} {summand : α → Except Fault Binary64} {items : List α} {fault : Fault}

/-- Infinities of both signs are among the summands. -/
def Opposed (summand : α → Except Fault Binary64) (items : List α) : Prop :=
  (∃ a ∈ items, summand a = .ok (infinite false)) ∧ ∃ a ∈ items, summand a = .ok (infinite true)

theorem fault_of_foldlM {s : ExactSum}
    (h : items.foldlM (fun s a => summand a >>= fun x => s.add x) s = .error fault) :
    (∃ a ∈ items, summand a = .error fault) ∨ fault = .sumTooLarge := by
  induction items generalizing s with
  | nil => cases h
  | cons a items ih =>
      rw [List.foldlM_cons] at h
      rcases Except.bind_eq_error_iff.mp h with h | ⟨next, -, h⟩
      · rcases Except.bind_eq_error_iff.mp h with h | ⟨y, -, h⟩
        · exact Or.inl ⟨a, List.mem_cons_self .., h⟩
        · exact Or.inr (eq_sumTooLarge_of_add h)
      · rcases ih h with ⟨b, hb, hfail⟩ | hlarge
        · exact Or.inl ⟨b, List.mem_cons_of_mem _ hb, hfail⟩
        · exact Or.inr hlarge

/-- **A sum is refused for one of three reasons**: a summand is missing, a
partial sum is too large, or there are infinities of both signs. -/
theorem fault_of_sumBy (h : sumBy summand items = .error fault) :
    (∃ a ∈ items, summand a = .error fault) ∨ fault = .sumTooLarge
      ∨ fault = .opposedInfinities ∧ Opposed summand items := by
  rcases Except.bind_eq_error_iff.mp h with h | ⟨s, hrun, h⟩
  · exact (fault_of_foldlM h).imp_right Or.inl
  · obtain ⟨xs, hxs, hsums⟩ := sums_nil.foldlM hrun
    obtain ⟨hfault, habove, hbelow⟩ := eq_opposedInfinities_of_total h
    rw [hsums.sawAbove, List.nil_append, decide_eq_true_eq] at habove
    rw [hsums.sawBelow, List.nil_append, decide_eq_true_eq] at hbelow
    have hitem : ∀ x ∈ xs, ∃ a ∈ items, summand a = .ok x := by
      intro x hx
      have hmem : (.ok x : Except Fault Binary64) ∈ items.map summand :=
        hxs ▸ List.mem_map_of_mem hx
      exact List.mem_map.mp hmem
    exact Or.inr (Or.inr ⟨hfault, hitem _ habove, hitem _ hbelow⟩)

end ExactSum
end Binary64

namespace Number

open Binary64

variable {key : Number} {fault : Fault}

theorem eq_intTooLarge_of_toBinary64 (h : key.toBinary64 = .error fault) :
    fault = .intTooLarge := by
  cases key with
  | int n => exact eq_intTooLarge_of_fitInt h
  | float x => cases h

theorem eq_intTooLarge_of_times {n : Int} (h : key.times n = .error fault) :
    fault = .intTooLarge := by
  cases key with
  | int m => exact eq_intTooLarge_of_fitInt h
  | float x =>
      simp only [Number.times] at h
      cases hfit : fitInt n with
      | ok y =>
          rw [hfit] at h
          cases h
      | error fault' =>
          rw [hfit] at h
          obtain rfl := Except.error.inj h
          exact eq_intTooLarge_of_fitInt hfit

end Number
end LoadReport
