import Mathlib.Algebra.BigOperators.Group.List.Basic
import Mathlib.Algebra.Group.Int.Defs
import LoadReport.Binary64.ExactSum
import LoadReport.Proofs.Except

/-!
# The sum depends on the summands

An `ExactSum` is a state that summands go through one by one, and what its
partial sums are depends on the order in which they do. Its result does not:
`sumOf` says what it is for a list of summands, once all of them are there,
by the infinities and NaN among them and else by their exact sum
(`sumBy_eq_ok`). No order is left in that (`sumOf_perm`).

The invariant of a run, `Sums`, has to survive the summands that clear the
partial sums, so it says what these add up to only for as long as all
summands are finite.

What the order decides is whether there is a result at all. Nothing is said
here of the runs that give up.
-/

namespace LoadReport
namespace Binary64

/-- The exact value in units; zero for what has none. -/
def unitsOrZero (x : Binary64) : Int := x.units?.getD 0

namespace ExactSum

def sumOf (xs : List Binary64) : Except Fault Binary64 :=
  total { partials := xs.map unitsOrZero
          sawNan := decide (nan ∈ xs)
          sawAbove := decide (infinite false ∈ xs)
          sawBelow := decide (infinite true ∈ xs) }

theorem sumOf_perm {xs ys : List Binary64} (h : xs.Perm ys) : sumOf xs = sumOf ys := by
  unfold sumOf total
  dsimp only
  simp only [h.mem_iff, (h.map unitsOrZero).sum_eq]

/-! ## The invariant of a run -/

structure Sums (xs : List Binary64) (s : ExactSum) : Prop where
  sawNan : s.sawNan = decide (nan ∈ xs)
  sawAbove : s.sawAbove = decide (infinite false ∈ xs)
  sawBelow : s.sawBelow = decide (infinite true ∈ xs)
  sum_eq : (∀ x ∈ xs, x.isFinite = true) → s.partials.sum = (xs.map unitsOrZero).sum

theorem sums_nil : Sums [] {} := ⟨rfl, rfl, rfl, fun _ => rfl⟩

theorem Sums.add {xs : List Binary64} {s s' : ExactSum} {x : Binary64} (h : Sums xs s)
    (hadd : s.add x = .ok s') : Sums (xs ++ [x]) s' := by
  have hlast : x ∈ xs ++ [x] := List.mem_append_right _ (List.mem_singleton_self x)
  match x with
  | .nan =>
      obtain rfl := Except.ok.inj hadd
      refine ⟨?_, ?_, ?_, fun hfin => nomatch hfin _ hlast⟩
      · simp
      · simpa using h.sawAbove
      · simpa using h.sawBelow
  | .infinite false =>
      obtain rfl := Except.ok.inj hadd
      refine ⟨?_, ?_, ?_, fun hfin => nomatch hfin _ hlast⟩
      · simpa using h.sawNan
      · simp
      · simpa using h.sawBelow
  | .infinite true =>
      obtain rfl := Except.ok.inj hadd
      refine ⟨?_, ?_, ?_, fun hfin => nomatch hfin _ hlast⟩
      · simpa using h.sawNan
      · simpa using h.sawAbove
      · simp
  | .finite negative units hr =>
      unfold ExactSum.add at hadd
      dsimp only at hadd
      split at hadd
      · next partials habsorb =>
          obtain rfl := Except.ok.inj hadd
          refine ⟨?_, ?_, ?_, fun hfin => ?_⟩
          · simpa using h.sawNan
          · simpa using h.sawAbove
          · simpa using h.sawBelow
          · have hsum := h.sum_eq fun y hy => hfin y (List.mem_append_left _ hy)
            rw [sum_absorb habsorb, hsum, List.map_append, List.sum_append]
            simp [unitsOrZero, units?]
      · cases hadd

/-- A run that comes to its end has had a summand for each item. -/
theorem Sums.foldlM {α : Type} {summand : α → Except Fault Binary64} {items : List α}
    {xs : List Binary64} {s s' : ExactSum} (h : Sums xs s)
    (hrun : items.foldlM (fun s a => summand a >>= fun x => s.add x) s = .ok s') :
    ∃ ys, items.map summand = ys.map .ok ∧ Sums (xs ++ ys) s' := by
  induction items generalizing xs s with
  | nil =>
      obtain rfl := Except.ok.inj hrun
      exact ⟨[], rfl, by rwa [List.append_nil]⟩
  | cons a items ih =>
      rw [List.foldlM_cons] at hrun
      obtain ⟨next, hstep, hrest⟩ := Except.bind_eq_ok_iff.mp hrun
      obtain ⟨x, hx, hadd⟩ := Except.bind_eq_ok_iff.mp hstep
      obtain ⟨ys, hys, hsums⟩ := ih (h.add hadd) hrest
      refine ⟨x :: ys, ?_, ?_⟩
      · rw [List.map_cons, List.map_cons, hx, hys]
      · rwa [List.append_assoc] at hsums

theorem Sums.total_eq {xs : List Binary64} {s : ExactSum} (h : Sums xs s) :
    s.total = sumOf xs := by
  unfold sumOf total
  dsimp only
  rw [h.sawNan, h.sawAbove, h.sawBelow]
  by_cases hfin : ∀ x ∈ xs, x.isFinite = true
  · rw [h.sum_eq hfin]
  · -- some flag is up, so the partial sums are not asked
    have hflag : infinite false ∈ xs ∨ infinite true ∈ xs ∨ nan ∈ xs := by
      obtain ⟨x, hx⟩ := Classical.not_forall.mp hfin
      obtain ⟨hmem, hx⟩ := Classical.not_imp.mp hx
      match x with
      | .nan => exact Or.inr (Or.inr hmem)
      | .infinite false => exact Or.inl hmem
      | .infinite true => exact Or.inr (Or.inl hmem)
      | .finite .. => exact absurd rfl hx
    rcases hflag with hflag | hflag | hflag <;> simp [hflag]

/-! ## The result -/

/-- **A sum that has a result has the one of its summands.** -/
theorem sumBy_eq_ok {α : Type} {summand : α → Except Fault Binary64} {items : List α}
    {x : Binary64} (h : sumBy summand items = .ok x) :
    ∃ xs, items.map summand = xs.map .ok ∧ sumOf xs = .ok x := by
  obtain ⟨s, hrun, htotal⟩ := Except.bind_eq_ok_iff.mp h
  obtain ⟨xs, hxs, hsums⟩ := sums_nil.foldlM hrun
  rw [List.nil_append] at hsums
  exact ⟨xs, hxs, by rw [← hsums.total_eq, htotal]⟩

theorem sumOf_of_sumBy {xs : List Binary64} {x : Binary64} (h : sumBy Except.ok xs = .ok x) :
    sumOf xs = .ok x := by
  obtain ⟨ys, hys, hsum⟩ := sumBy_eq_ok h
  obtain rfl := List.map_injective_iff.mpr (fun _ _ => Except.ok.inj) hys
  exact hsum

end ExactSum
end Binary64
end LoadReport
