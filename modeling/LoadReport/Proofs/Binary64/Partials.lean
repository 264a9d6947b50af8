import LoadReport.Proofs.Binary64.ExactSum
import LoadReport.Proofs.Binary64.Units

/-!
# Sums that are not given up

An `ExactSum` gives up when a rounded sum on its way through the partial sums
is too large, and what is on the way depends on all of the partial sums so
far. This file bounds it by the exact sums alone: as long as the sum of the
summands so far is small, every partial sum is, and so is everything that is
carried through them (`exists_absorb`).

The invariant that gives this is `Apart`. Each partial sum is less than half
of some power of two that divides all later ones, so the later ones add up to
a multiple of it, and the nearest one to the whole sum. It is not enough that
partial sums do not overlap: `8` and `-7` do not, and their sum says little
about either. That a half is missing, too, is due to the ties going to the
even neighbour: what a tie leaves behind is half of the last bit, but then
the rounded sum is a multiple of twice that bit (`exists_grid`).

- **One summand.** `Apart` survives a carry (`Apart.absorb`), since what
  rounding leaves behind is smaller than half a step of the rounded sum and
  no larger than the partial sum it came from (`exists_step`).
- **A run.** `Amounts` packs this with the exact sum, and `sumBy_of_units`
  runs it over a list of summands.
-/

namespace LoadReport

/-! ## What rounding leaves behind -/

/-- The rounded number is a multiple of more than twice the error. -/
theorem exists_grid (n : Nat) :
    ∃ k, 2 ^ k ∣ roundQuotient n 1 ∧ 2 * distance n 1 (roundQuotient n 1) < 2 ^ k := by
  have hmod : n % 2 ^ lowestKeptBit n < 2 ^ lowestKeptBit n := Nat.mod_lt n (Nat.two_pow_pos _)
  have hsplit := Nat.div_add_mod' n (2 ^ lowestKeptBit n)
  have hnext := Nat.succ_mul (n / 2 ^ lowestKeptBit n) (2 ^ lowestKeptBit n)
  rw [roundQuotient_eq, Nat.div_one, Nat.one_mul]
  unfold distance
  generalize lowestKeptBit n = shift at *
  by_cases htie : 2 * (n % 2 ^ shift) = 2 ^ shift
  · have heven : 2 ∣ divNearest n (2 ^ shift) := by
      unfold divNearest
      dsimp only
      split <;> omega
    have hle := le_divNearest n (2 ^ shift)
    have hge := divNearest_le n (2 ^ shift)
    refine ⟨shift + 1, ?_, ?_⟩
    · rw [Nat.pow_succ']
      exact Nat.mul_dvd_mul_right heven _
    · rw [Nat.pow_succ']
      have hpos := Nat.two_pow_pos shift
      rcases Nat.eq_or_lt_of_le hle with heq | hlt
      · rw [← heq]
        omega
      · have heq : divNearest n (2 ^ shift) = n / 2 ^ shift + 1 := by omega
        rw [heq, Nat.mul_one, hnext]
        omega
  · refine ⟨shift, Nat.dvd_mul_left _ _, ?_⟩
    unfold divNearest
    dsimp only
    split
    · omega
    · rw [Nat.mul_one, hnext]
      omega

theorem dvd_roundQuotient {n k : Nat} (h : 2 ^ k ∣ n) : 2 ^ k ∣ roundQuotient n 1 := by
  rw [roundQuotient_eq, Nat.div_one, Nat.one_mul]
  rcases Nat.le_total k (lowestKeptBit n) with hle | hge
  · exact Nat.dvd_mul_left_of_dvd (Nat.pow_dvd_pow 2 hle) _
  · -- the number is on the grid already
    have hdvd : 2 ^ lowestKeptBit n ∣ n := Nat.dvd_trans (Nat.pow_dvd_pow 2 hge) h
    rw [divNearest_of_dvd (Nat.two_pow_pos _) hdvd, Nat.div_mul_cancel hdvd]
    exact h

namespace Binary64
namespace ExactSum

theorem roundUnits_eq (n : Int) : roundUnits n = roundRatio n 1 := rfl

theorem hasMantissa_roundUnits (n : Int) : HasMantissa (roundUnits n).natAbs :=
  hasMantissa_roundRatio n 1

theorem natAbs_sub_roundUnits (n : Int) :
    (n - roundUnits n).natAbs = distance n.natAbs 1 (roundQuotient n.natAbs 1) := by
  unfold roundUnits distance
  rw [Nat.mul_one]
  split <;> omega

/-- No number of at most 53 bits is nearer than the rounded one. -/
theorem natAbs_sub_roundUnits_le (n : Int) {x : Int} (hx : HasMantissa x.natAbs) :
    (n - roundUnits n).natAbs ≤ (n - x).natAbs := by
  have hzero := (distance_roundQuotient_le n.natAbs Nat.one_pos representable_zero.2).1
  have hnear := (distance_roundQuotient_le n.natAbs Nat.one_pos hx).1
  rw [natAbs_sub_roundUnits]
  generalize distance n.natAbs 1 (roundQuotient n.natAbs 1) = error at *
  unfold distance at hzero hnear
  omega

theorem dvd_roundUnits {n : Int} {k : Nat} (h : ((2 ^ k : Nat) : Int) ∣ n) :
    ((2 ^ k : Nat) : Int) ∣ roundUnits n := by
  rw [Int.ofNat_dvd_left] at h ⊢
  rw [roundUnits_eq, natAbs_roundRatio]
  exact dvd_roundQuotient h

/-! ## Partial sums that are apart -/

/-- Each of the numbers is less than half of a power of two that divides all
the numbers behind it. -/
def Apart : List Int → Prop
  | [] => True
  | y :: rest =>
      (∃ k, 2 * y.natAbs < 2 ^ k ∧ ∀ z ∈ rest, ((2 ^ k : Nat) : Int) ∣ z) ∧ Apart rest

theorem dvd_sum {d : Int} {zs : List Int} (h : ∀ z ∈ zs, d ∣ z) : d ∣ zs.sum := by
  induction zs with
  | nil => exact Int.dvd_zero d
  | cons z zs ih =>
      rw [List.sum_cons]
      exact Int.dvd_add (h z (List.mem_cons_self ..))
        (ih fun w hw => h w (List.mem_cons_of_mem _ hw))

/-- What a carry leaves behind at a partial sum is apart from the rounded sum
that moves on and from the partial sums to come. -/
theorem exists_step {x y : Int} {rest : List Int} (hx : HasMantissa x.natAbs)
    (hy : ∃ k, 2 * y.natAbs < 2 ^ k ∧ ∀ z ∈ rest, ((2 ^ k : Nat) : Int) ∣ z) :
    ∃ k, 2 * (x + y - roundUnits (x + y)).natAbs < 2 ^ k
      ∧ ((2 ^ k : Nat) : Int) ∣ roundUnits (x + y) ∧ ∀ z ∈ rest, ((2 ^ k : Nat) : Int) ∣ z := by
  obtain ⟨k, hk, hrest⟩ := hy
  obtain ⟨j, hdvd, hj⟩ := exists_grid (x + y).natAbs
  rw [← natAbs_sub_roundUnits] at hj
  have hle := natAbs_sub_roundUnits_le (x + y) hx
  have hfiner : ∀ {i l : Nat} {z : Int}, i ≤ l → ((2 ^ l : Nat) : Int) ∣ z →
      ((2 ^ i : Nat) : Int) ∣ z := by
    intro i l z hil hz
    exact Int.dvd_trans (Int.natCast_dvd_natCast.mpr (Nat.pow_dvd_pow 2 hil)) hz
  have hrounded : ((2 ^ j : Nat) : Int) ∣ roundUnits (x + y) := by
    rw [Int.ofNat_dvd_left, roundUnits_eq, natAbs_roundRatio]
    exact hdvd
  rcases Nat.le_total j k with hjk | hkj
  · exact ⟨j, hj, hrounded, fun z hz => hfiner hjk (hrest z hz)⟩
  · exact ⟨k, by omega, hfiner hkj hrounded, hrest⟩

theorem dvd_of_absorb {ys qs : List Int} {x : Int} {k : Nat} (h : absorb ys x = some qs)
    (hx : ((2 ^ k : Nat) : Int) ∣ x) (hys : ∀ y ∈ ys, ((2 ^ k : Nat) : Int) ∣ y) :
    ∀ q ∈ qs, ((2 ^ k : Nat) : Int) ∣ q := by
  induction ys generalizing x qs with
  | nil =>
      obtain rfl := Option.some.inj h
      intro q hq
      split at hq
      · exact absurd hq List.not_mem_nil
      · obtain rfl := List.mem_singleton.mp hq
        exact hx
  | cons y rest ih =>
      have hsum := Int.dvd_add hx (hys y (List.mem_cons_self ..))
      have hhigh := dvd_roundUnits hsum
      simp only [absorb] at h
      split at h
      · obtain ⟨kept, hkept, rfl⟩ := Option.map_eq_some_iff.mp h
        have hrest := ih hkept hhigh fun z hz => hys z (List.mem_cons_of_mem _ hz)
        intro q hq
        split at hq
        · exact hrest q hq
        · rcases List.mem_cons.mp hq with rfl | hq
          · exact Int.dvd_sub hsum hhigh
          · exact hrest q hq
      · cases h

theorem Apart.absorb {ys qs : List Int} {x : Int} (hys : Apart ys) (hx : HasMantissa x.natAbs)
    (h : absorb ys x = some qs) : Apart qs := by
  induction ys generalizing x qs with
  | nil =>
      obtain rfl := Option.some.inj h
      split
      · trivial
      · exact ⟨⟨_, Nat.lt_two_pow_self, fun z hz => absurd hz List.not_mem_nil⟩, trivial⟩
  | cons y rest ih =>
      obtain ⟨hy, hrest⟩ := hys
      obtain ⟨k, hlow, hhigh, hdvd⟩ := exists_step hx hy
      simp only [ExactSum.absorb] at h
      split at h
      · obtain ⟨kept, hkept, rfl⟩ := Option.map_eq_some_iff.mp h
        have hapart := ih hrest (hasMantissa_roundUnits _) hkept
        split
        · exact hapart
        · exact ⟨⟨k, hlow, dvd_of_absorb hkept hhigh hdvd⟩, hapart⟩
      · cases h

/-! ## Partial sums are bounded by their sum -/

/-- A multiple of a power of two is within every power of two that a sum
with less than half of it is within. -/
theorem natAbs_le_of_add {low rest : Int} {k m : Nat} (hlow : 2 * low.natAbs < 2 ^ k)
    (hrest : ((2 ^ k : Nat) : Int) ∣ rest) (h : (low + rest).natAbs ≤ 2 ^ m) :
    rest.natAbs ≤ 2 ^ m := by
  have htriangle : rest.natAbs ≤ 2 ^ m + low.natAbs := by omega
  rw [Int.ofNat_dvd_left] at hrest
  generalize rest.natAbs = r at *
  generalize low.natAbs = l at *
  rcases Nat.le_total k m with hkm | hmk
  · -- the bound is a multiple as well, so the next one is too far away
    obtain ⟨j, rfl⟩ := hrest
    obtain ⟨c, hc⟩ := Nat.pow_dvd_pow 2 hkm
    rw [hc] at htriangle ⊢
    refine Nat.mul_le_mul_left _ (Nat.le_of_not_lt fun hlt => ?_)
    have hnext := Nat.mul_le_mul_left (2 ^ k) hlt
    rw [Nat.mul_succ] at hnext
    omega
  · rcases Nat.eq_or_lt_of_le hmk with rfl | hlt
    · obtain ⟨j, rfl⟩ := hrest
      have hj : j < 2 := by
        refine Nat.lt_of_mul_lt_mul_left (a := 2 ^ m) ?_
        omega
      calc 2 ^ m * j ≤ 2 ^ m * 1 := Nat.mul_le_mul_left _ (by omega)
        _ = 2 ^ m := Nat.mul_one _
    · have hdouble : 2 * 2 ^ m ≤ 2 ^ k := by
        rw [← Nat.pow_succ']
        exact Nat.pow_le_pow_right (by decide) hlt
      rcases Nat.eq_zero_or_pos r with rfl | hpos
      · exact Nat.zero_le _
      · have hle := Nat.le_of_dvd hpos hrest
        omega

/-- **A carry goes through** if the partial sums amount to little before and
after it. -/
theorem exists_absorb {ys : List Int} {x : Int} {m : Nat} (hm : m + 1 < limitExponent)
    (hys : Apart ys) (hx : HasMantissa x.natAbs) (hbefore : ys.sum.natAbs ≤ 2 ^ m)
    (hafter : (x + ys.sum).natAbs ≤ 2 ^ m) : ∃ qs, absorb ys x = some qs := by
  induction ys generalizing x with
  | nil => exact ⟨_, rfl⟩
  | cons y rest ih =>
      obtain ⟨hy, hrest⟩ := hys
      obtain ⟨k, hlow, hhigh, hdvd⟩ := exists_step hx hy
      rw [List.sum_cons] at hbefore hafter
      have hsum : rest.sum.natAbs ≤ 2 ^ m := by
        obtain ⟨j, hj, hdvd'⟩ := hy
        exact natAbs_le_of_add hj (dvd_sum hdvd') hbefore
      have hcarried : (roundUnits (x + y) + rest.sum).natAbs ≤ 2 ^ m := by
        refine natAbs_le_of_add hlow (Int.dvd_add hhigh (dvd_sum hdvd)) ?_
        have heq : x + y - roundUnits (x + y) + (roundUnits (x + y) + rest.sum)
            = x + (y + rest.sum) := by omega
        rwa [heq]
      have hbound : (roundUnits (x + y)).natAbs < unitsLimit := by
        refine Nat.lt_of_le_of_lt ?_ (two_pow_lt_unitsLimit hm)
        rw [Nat.pow_succ']
        omega
      obtain ⟨kept, hkept⟩ := ih hrest (hasMantissa_roundUnits _) hsum hcarried
      simp only [absorb, hbound, if_true]
      rw [hkept]
      exact ⟨_, rfl⟩

/-! ## Runs -/

/-- A sum in progress, of finite summands that amount to a number of units. -/
structure Amounts (n : Int) (s : ExactSum) : Prop where
  apart : Apart s.partials
  sum_eq : s.partials.sum = n
  sawNan : s.sawNan = false
  sawAbove : s.sawAbove = false
  sawBelow : s.sawBelow = false

theorem amounts_nil : Amounts 0 {} := ⟨trivial, rfl, rfl, rfl, rfl⟩

theorem Amounts.add {n u : Int} {s : ExactSum} {x : Binary64} {m : Nat} (h : Amounts n s)
    (hm : m + 1 < limitExponent) (hx : x.units? = some u) (hbefore : n.natAbs ≤ 2 ^ m)
    (hafter : (n + u).natAbs ≤ 2 ^ m) : ∃ s', s.add x = .ok s' ∧ Amounts (n + u) s' := by
  have hmantissa := (representable_of_units? hx).2
  rw [← h.sum_eq] at hbefore hafter ⊢
  rw [Int.add_comm] at hafter
  obtain ⟨qs, hqs⟩ := exists_absorb hm h.apart hmantissa hbefore hafter
  cases x with
  | nan => cases hx
  | infinite negative => cases hx
  | finite negative units hr =>
      obtain rfl := Option.some.inj hx
      unfold ExactSum.add
      dsimp only
      rw [hqs]
      exact ⟨_, rfl, h.apart.absorb hmantissa hqs, sum_absorb hqs, h.sawNan, h.sawAbove,
        h.sawBelow⟩

theorem Amounts.total_eq {n : Int} {s : ExactSum} (h : Amounts n s) :
    s.total = .ok (ofSignedUnits false n) := by
  unfold total
  rw [h.sawNan, h.sawAbove, h.sawBelow, h.sum_eq]
  rfl

section Run

variable {α : Type} {summand : α → Except Fault Binary64} {units : α → Int} {m : Nat}

theorem Amounts.foldlM {items : List α} {n : Int} {s : ExactSum} (h : Amounts n s)
    (hm : m + 1 < limitExponent)
    (hsummand : ∀ a ∈ items, ∃ x, summand a = .ok x ∧ x.units? = some (units a))
    (hbound : n.natAbs + (items.map fun a => (units a).natAbs).sum ≤ 2 ^ m) :
    ∃ s', items.foldlM (fun s a => summand a >>= fun x => s.add x) s = .ok s'
      ∧ Amounts (n + (items.map units).sum) s' := by
  induction items generalizing n s with
  | nil => exact ⟨s, rfl, by rwa [List.map_nil, List.sum_nil, Int.add_zero]⟩
  | cons a items ih =>
      rw [List.map_cons, List.sum_cons] at hbound
      obtain ⟨x, hx, hu⟩ := hsummand a (List.mem_cons_self ..)
      obtain ⟨next, hnext, hamounts⟩ := h.add hm hu (by omega) (by omega)
      obtain ⟨s', hs', hfinal⟩ := ih hamounts
        (fun b hb => hsummand b (List.mem_cons_of_mem _ hb)) (by omega)
      refine ⟨s', ?_, ?_⟩
      · rw [List.foldlM_cons, hx]
        exact Except.bind_eq_ok_iff.mpr ⟨next, hnext, hs'⟩
      · rwa [List.map_cons, List.sum_cons, ← Int.add_assoc]

/-- **Summands of bounded magnitude have a sum.** It is their exact sum,
rounded once. -/
theorem sumBy_of_units {items : List α} (hm : m + 1 < limitExponent)
    (hsummand : ∀ a ∈ items, ∃ x, summand a = .ok x ∧ x.units? = some (units a))
    (hbound : (items.map fun a => (units a).natAbs).sum ≤ 2 ^ m) :
    sumBy summand items = .ok (ofSignedUnits false (items.map units).sum) := by
  obtain ⟨s, hs, hamounts⟩ := amounts_nil.foldlM hm hsummand (by simpa using hbound)
  rw [Int.zero_add] at hamounts
  exact Except.bind_eq_ok_iff.mpr ⟨s, hs, hamounts.total_eq⟩

end Run

end ExactSum
end Binary64
end LoadReport
