import LoadReport.Proofs.Binary64.Units
import LoadReport.Proofs.Summary.Requests

/-!
# Ranks in order

A rank is computed with two roundings, of the product of fraction and total
and of that product with a half added, and a large total is rounded before.
All of it is monotone, and so is taking the whole part; so the rank of a larger
fraction among more samples is no smaller, even for totals so large that
nothing on the way is exact (`rank_le_rank`).

All of it is said of `rankOfUnits`, which is the rank as a function of two
magnitudes in units. A fraction of either kind comes down to it
(`rank_eq_ok`): the only whole ones are 0 and 1, and their products are not
rounded.

Whether the rank stays within the total is a matter of the added half. Up to
2^52 a total and a half is a number of 53 bits, or ties to the even total
2^52 itself, so no rank exceeds the total. From there to 2^53 the half is a
tie for every total, and the odd ones round up (`rankOfUnits_one`).
-/

namespace LoadReport
namespace Percentile

open Binary64

/-! ## Half a one -/

def halfUnits : Nat := 2 ^ (unitExponent - 1)

theorem halfUnits_pos : 0 < halfUnits := Nat.two_pow_pos _

theorem unitsPerOne_eq_two_mul : unitsPerOne = 2 * halfUnits := by
  rw [unitsPerOne_eq, halfUnits, Nat.mul_comm, Nat.two_pow_pred_mul_two (by decide)]

theorem units?_half : Binary64.half.units? = some (halfUnits : Int) := rfl

/-- Adding a half never reaches the limit: the largest number is so coarse
that a half is lost on it. -/
theorem roundQuotient_add_half_lt {w : Nat} (hw : Representable w) :
    roundQuotient (w + halfUnits) 1 < unitsLimit := by
  obtain ⟨hlt, hmantissa⟩ := hw
  have hnear := (distance_roundQuotient_le (w + halfUnits) Nat.one_pos hmantissa).1
  have hlimit : unitsLimit = 2 ^ (limitExponent - significantBits + significantBits) := by
    rw [unitsLimit_eq, Nat.sub_add_cancel (by decide)]
  have hgap : w + 2 ^ (limitExponent - significantBits) ≤ unitsLimit := by
    rw [hlimit] at hlt ⊢
    exact hmantissa.add_le hlt
  have hone : 2 * halfUnits < 2 ^ (limitExponent - significantBits) := by
    rw [← unitsPerOne_eq_two_mul, unitsPerOne_eq]
    exact Nat.pow_lt_pow_right (by decide) (by decide)
  unfold distance at hnear
  omega

/-! ## The rank in units -/

/-- The rank of a fraction of `m` units among samples whose number is `v`
units. -/
def rankOfUnits (m v : Nat) : Nat :=
  roundQuotient (roundQuotient (m * v) unitsPerOne + halfUnits) 1 / unitsPerOne

theorem rankOfUnits_le {m m' v v' : Nat} (hm : m ≤ m') (hv : v ≤ v') :
    rankOfUnits m v ≤ rankOfUnits m' v' := by
  have hproduct := roundQuotient_le_of_le Number.unitsPerOne_pos (Nat.mul_le_mul hm hv)
  exact Nat.div_le_div_right
    (roundQuotient_le_of_le Nat.one_pos (Nat.add_le_add_right hproduct halfUnits))

/-- A fraction between 0 and 1 stands at some number of units up to one. -/
theorem exists_fraction {p : Number} (h : inRange p = true) :
    ∃ m : Nat, m ≤ unitsPerOne ∧ p.position? = some (.units m) := by
  rw [inRange, Bool.and_eq_true] at h
  obtain ⟨q, r, hq, hr, hqr⟩ := Number.le_iff.mp h.1
  obtain ⟨r', t, hr', ht, hrt⟩ := Number.le_iff.mp h.2
  obtain rfl := Option.some.inj (hr.symm.trans hr')
  obtain rfl := Option.some.inj hq
  obtain rfl := Option.some.inj ht
  cases r with
  | below => cases hqr
  | above => cases hrt
  | units n =>
      have hlow : 0 * (unitsPerOne : Int) ≤ n := of_decide_eq_true hqr
      have hhigh : n ≤ 1 * (unitsPerOne : Int) := of_decide_eq_true hrt
      have hn : (n.toNat : Int) = n := by omega
      exact ⟨n.toNat, by omega, by rw [hn]; exact hr⟩

theorem floor_of_units? {x : Binary64} {n : Nat} (h : x.units? = some (n : Int)) :
    x.floor = .ok ((n / unitsPerOne : Nat) : Int) := by
  have hfdiv : Int.fdiv (n : Int) unitsPerOne = ((n / unitsPerOne : Nat) : Int) :=
    Int.fdiv_eq_ediv_of_nonneg _ (Int.natCast_nonneg _)
  unfold Binary64.floor floor?
  rw [h, Option.map_some, hfdiv]

section Fits

variable {p q : Number} {total total' : Int} {n n' : Binary64} {m v : Nat}

theorem exists_product (hfit : fitInt total = .ok n) (hn : n.units? = some (v : Int))
    (hp : p.position? = some (.units m)) (hm : m ≤ unitsPerOne) :
    ∃ y, p.times total = .ok y ∧ y.units? = some (roundQuotient (m * v) unitsPerOne : Int) := by
  have hv := representable_of_units? hn
  rw [Int.natAbs_natCast] at hv
  have hbound : roundQuotient (m * v) unitsPerOne ≤ v := by
    refine roundQuotient_le Number.unitsPerOne_pos hv.2 ?_
    rw [Nat.mul_comm v]
    exact Nat.mul_le_mul_right v hm
  cases p with
  | float x =>
      have hx := units?_of_position? hp
      have hround : roundRatio ((m : Int) * v) unitsPerOne
          = roundQuotient (m * v) unitsPerOne := by
        rw [← Int.natCast_mul, roundRatio_natCast]
      refine ⟨x.mul n, ?_, ?_⟩
      · unfold Number.times
        rw [hfit]
        rfl
      · rw [← hround]
        refine units?_mul hx hn ?_
        rw [hround, Int.natAbs_natCast]
        exact Nat.lt_of_le_of_lt hbound hv.1
  | int k =>
      have hone := Number.unitsPerOne_pos
      have hk : k * (unitsPerOne : Int) = m := Position.units.inj (Option.some.inj hp)
      have hwhole : k = 0 ∨ k = 1 := by
        have hlow : 0 * (unitsPerOne : Int) ≤ k * unitsPerOne := by omega
        have hhigh : k * (unitsPerOne : Int) ≤ 1 * unitsPerOne := by omega
        have hlow' := Int.le_of_mul_le_mul_right hlow (by omega)
        have hhigh' := Int.le_of_mul_le_mul_right hhigh (by omega)
        omega
      rcases hwhole with rfl | rfl
      · obtain rfl : m = 0 := by omega
        obtain ⟨y, hy, hunits⟩ := fitInt_of_le (n := 0) (by decide)
        refine ⟨y, ?_, ?_⟩
        · show fitInt (0 * total) = .ok y
          rw [Int.zero_mul, hy]
        · rw [hunits, Nat.zero_mul, roundQuotient_zero hone, Int.zero_mul]
          rfl
      · obtain rfl : m = unitsPerOne := by omega
        refine ⟨n, ?_, ?_⟩
        · show fitInt (1 * total) = .ok n
          rw [Int.one_mul, hfit]
        · rw [Nat.mul_comm, roundQuotient_mul hone hv.2, hn]

/-- **The rank of a fraction of either kind**, if the total fits. -/
theorem rank_eq_ok (hfit : fitInt total = .ok n) (hn : n.units? = some (v : Int))
    (hp : p.position? = some (.units m)) (hm : m ≤ unitsPerOne) :
    rank p total = .ok (rankOfUnits m v : Int) := by
  obtain ⟨y, hy, hunits⟩ := exists_product hfit hn hp hm
  have hw := representable_of_units? hunits
  rw [Int.natAbs_natCast] at hw
  have hround : roundRatio ((roundQuotient (m * v) unitsPerOne : Int) + halfUnits) 1
      = (roundQuotient (roundQuotient (m * v) unitsPerOne + halfUnits) 1 : Nat) := by
    rw [← Int.natCast_add, roundRatio_natCast]
  have hsum := units?_add hunits units?_half (by
    rw [hround, Int.natAbs_natCast]
    exact roundQuotient_add_half_lt hw)
  rw [hround] at hsum
  unfold rank
  rw [hy]
  exact floor_of_units? hsum

theorem exists_units?_of_fitInt {k : Nat} (hfit : fitInt (k : Int) = .ok n) :
    n.units? = some (roundQuotient (k * unitsPerOne) 1 : Int) := by
  rw [units?_of_fitInt hfit, ← Int.natCast_mul, roundRatio_natCast]

/-- If the total fits, every fraction has a rank. -/
theorem exists_rank (hfit : fitInt total = .ok n) (htotal : 0 ≤ total) (hp : inRange p = true) :
    ∃ r, rank p total = .ok r := by
  obtain ⟨k, rfl⟩ := Int.eq_ofNat_of_zero_le htotal
  obtain ⟨m, hm, hplace⟩ := exists_fraction hp
  exact ⟨_, rank_eq_ok hfit (exists_units?_of_fitInt hfit) hplace hm⟩

/-- Of a rank there is nothing to object to but the total. -/
theorem fitInt_of_rank_eq_error {fault : Fault} (htotal : 0 ≤ total) (hp : inRange p = true)
    (h : rank p total = .error fault) : fitInt total = .error fault := by
  cases hfit : fitInt total with
  | ok n =>
      obtain ⟨r, hr⟩ := exists_rank hfit htotal hp
      rw [hr] at h
      cases h
  | error fault' =>
      have htimes : p.times total = .error fault' → fault' = fault := by
        intro htimes
        rw [rank, htimes] at h
        exact Except.error.inj h
      cases p with
      | float x => exact congrArg _ (htimes (by rw [Number.times, hfit]; rfl))
      | int m =>
          rcases eq_zero_or_one_of_inRange hp with rfl | rfl
          · have hzero : rank (.int 0) total = rank (.int 0) 0 := by
              simp only [rank, Number.times, Int.zero_mul]
            obtain ⟨n, hn, -⟩ := fitInt_of_le (n := 0) (by decide)
            obtain ⟨r, hr⟩ := exists_rank hn (Int.le_refl 0) hp
            rw [hzero, hr] at h
            cases h
          · exact congrArg _ (htimes (by rw [Number.times, Int.one_mul, hfit]))

/-- **Ranks are in the order of the fractions and of the totals.** -/
theorem rank_le_rank (hfit : fitInt total = .ok n) (hfit' : fitInt total' = .ok n')
    (htotal : 0 ≤ total) (hmore : total ≤ total') (hp : inRange p = true)
    (hq : inRange q = true) (h : p.le q = true) {r r' : Int} (hr : rank p total = .ok r)
    (hr' : rank q total' = .ok r') : r ≤ r' := by
  obtain ⟨k, rfl⟩ := Int.eq_ofNat_of_zero_le htotal
  obtain ⟨k', rfl⟩ := Int.eq_ofNat_of_zero_le (Int.le_trans htotal hmore)
  have hcount := roundQuotient_le_of_le Nat.one_pos
    (Nat.mul_le_mul_right unitsPerOne (Int.ofNat_le.mp hmore))
  obtain ⟨m, hm, hplace⟩ := exists_fraction hp
  obtain ⟨m', hm', hplace'⟩ := exists_fraction hq
  obtain ⟨_, _, hx, hy, hle⟩ := Number.le_iff.mp h
  obtain rfl := Option.some.inj (hplace.symm.trans hx)
  obtain rfl := Option.some.inj (hplace'.symm.trans hy)
  have hmm' : (m : Int) ≤ m' := of_decide_eq_true hle
  rw [rank_eq_ok hfit (exists_units?_of_fitInt hfit) hplace hm] at hr
  rw [rank_eq_ok hfit' (exists_units?_of_fitInt hfit') hplace' hm'] at hr'
  obtain rfl := Except.ok.inj hr
  obtain rfl := Except.ok.inj hr'
  exact Int.ofNat_le.mpr (rankOfUnits_le (Int.ofNat_le.mp hmm') hcount)

end Fits

/-! ## Ranks of zero and of one -/

theorem rankOfUnits_zero (v : Nat) : rankOfUnits 0 v = 0 := by
  have hself := roundQuotient_mul Nat.one_pos (hasMantissa_two_pow (unitExponent - 1))
  rw [Nat.mul_one] at hself
  have hround : roundQuotient halfUnits 1 = halfUnits := hself
  have hpos := halfUnits_pos
  rw [rankOfUnits, Nat.zero_mul, roundQuotient_zero Number.unitsPerOne_pos, Nat.zero_add, hround,
    Nat.div_eq_of_lt]
  rw [unitsPerOne_eq_two_mul]
  omega

/-- The whole part of a number of samples and a half. From 2^52 on the half
is half of the last bit. -/
theorem roundQuotient_add_half_div {k : Nat} (h : k < 2 ^ significantBits) :
    roundQuotient (k * unitsPerOne + halfUnits) 1 / unitsPerOne
      = if k < 2 ^ (significantBits - 1) then k else k + k % 2 := by
  have hhalf := unitsPerOne_eq_two_mul
  have hpos := halfUnits_pos
  split
  · next hsmall =>
      have hbits : HasMantissa (k * unitsPerOne + halfUnits) := by
        refine ⟨2 * k + 1, unitExponent - 1, ?_, ?_⟩
        · simp only [significantBits] at hsmall ⊢
          omega
        · show k * unitsPerOne + halfUnits = (2 * k + 1) * halfUnits
          rw [hhalf, Nat.add_mul, Nat.one_mul, Nat.mul_left_comm, Nat.mul_assoc]
      have hself := roundQuotient_mul Nat.one_pos hbits
      rw [Nat.mul_one] at hself
      rw [hself, Nat.mul_comm, Nat.mul_add_div Number.unitsPerOne_pos, Nat.div_eq_of_lt (by omega),
        Nat.add_zero]
  · next hlarge =>
      have hlog : (k * unitsPerOne + halfUnits).log2 = unitExponent + (significantBits - 1) := by
        refine (Nat.log2_eq_iff (by omega)).mpr ⟨?_, ?_⟩
        · rw [Nat.add_comm unitExponent, Nat.pow_add, ← unitsPerOne_eq]
          exact Nat.le_add_right_of_le (Nat.mul_le_mul_right _ (Nat.le_of_not_lt hlarge))
        · have hnext : k * unitsPerOne + unitsPerOne ≤ 2 ^ significantBits * unitsPerOne := by
            rw [← Nat.succ_mul]
            exact Nat.mul_le_mul_right _ h
          have hpow : 2 ^ (unitExponent + (significantBits - 1) + 1)
              = 2 ^ significantBits * unitsPerOne := by
            rw [unitsPerOne_eq, ← Nat.pow_add, Nat.add_assoc, Nat.sub_add_cancel (by decide),
              Nat.add_comm]
          rw [hpow]
          omega
      have hgrid : 2 ^ lowestKeptBit (k * unitsPerOne + halfUnits) = unitsPerOne := by
        rw [lowestKeptBit, hlog, Nat.add_sub_cancel, unitsPerOne_eq]
      have hwhole : (k * unitsPerOne + halfUnits) / unitsPerOne = k := by
        rw [Nat.mul_comm, Nat.mul_add_div Number.unitsPerOne_pos, Nat.div_eq_of_lt (by omega),
          Nat.add_zero]
      have hrest : (k * unitsPerOne + halfUnits) % unitsPerOne = halfUnits := by
        rw [Nat.mul_comm, Nat.mul_add_mod, Nat.mod_eq_of_lt (by omega)]
      rw [roundQuotient_eq, Nat.div_one, Nat.one_mul, hgrid,
        Nat.mul_div_cancel _ Number.unitsPerOne_pos]
      unfold divNearest
      dsimp only
      rw [hwhole, hrest]
      split <;> omega

/-- The rank of one: the whole part of the total and a half. -/
theorem rankOfUnits_one {k : Nat} (h : k < 2 ^ significantBits) :
    rankOfUnits unitsPerOne (k * unitsPerOne)
      = if k < 2 ^ (significantBits - 1) then k else k + k % 2 := by
  have hbits : HasMantissa (k * unitsPerOne) := by
    rw [unitsPerOne_eq]
    exact (hasMantissa_of_le (Nat.le_of_lt h)).mul_two_pow _
  rw [rankOfUnits, Nat.mul_comm, roundQuotient_mul Number.unitsPerOne_pos hbits,
    roundQuotient_add_half_div h]

section Exact

variable {p : Number} {k : Nat}

theorem rank_of_same_zero {n : Binary64} (hfit : fitInt (k : Int) = .ok n)
    (hp : p.same (.int 0) = true) : rank p k = .ok 0 := by
  have hplace : p.position? = some (.units (0 : Nat)) := by
    rw [Number.position?_eq_of_same hp, Number.position?, Int.zero_mul]
    rfl
  rw [rank_eq_ok hfit (exists_units?_of_fitInt hfit) hplace (Nat.zero_le _), rankOfUnits_zero]
  rfl

theorem rank_of_same_one (hk : k < 2 ^ significantBits) (hp : p.same (.int 1) = true) :
    rank p k = .ok ((if k < 2 ^ (significantBits - 1) then k else k + k % 2 : Nat) : Int) := by
  have hplace : p.position? = some (.units unitsPerOne) := by
    rw [Number.position?_eq_of_same hp, Number.position?, Int.one_mul]
  obtain ⟨n, hfit, hn⟩ := fitInt_of_le (n := k) (by rw [Int.natAbs_natCast]; omega)
  rw [← Int.natCast_mul] at hn
  rw [rank_eq_ok hfit hn hplace (Nat.le_refl _), rankOfUnits_one hk]

/-- **Up to 2^52 samples no rank exceeds their number.** -/
theorem rank_le_total (hk : k ≤ 2 ^ (significantBits - 1)) (hp : inRange p = true) {r : Int}
    (hr : rank p k = .ok r) : r ≤ k := by
  have hlt : k < 2 ^ significantBits :=
    Nat.lt_of_le_of_lt hk (Nat.pow_lt_pow_right (by decide) (by decide))
  obtain ⟨n, hfit, hn⟩ := fitInt_of_le (n := k) (by rw [Int.natAbs_natCast]; omega)
  rw [← Int.natCast_mul] at hn
  obtain ⟨m, hm, hplace⟩ := exists_fraction hp
  rw [rank_eq_ok hfit hn hplace hm] at hr
  obtain rfl := Except.ok.inj hr
  have hle := rankOfUnits_le hm (Nat.le_refl (k * unitsPerOne))
  rw [rankOfUnits_one hlt] at hle
  split at hle
  · exact Int.ofNat_le.mpr hle
  · next hlarge =>
      obtain rfl : k = 2 ^ (significantBits - 1) := Nat.le_antisymm hk (Nat.le_of_not_lt hlarge)
      exact Int.ofNat_le.mpr hle

end Exact

end Percentile
end LoadReport
