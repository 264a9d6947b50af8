import Mathlib.Algebra.Group.Action.Defs
import Mathlib.Algebra.Order.BigOperators.Group.List
import Mathlib.Algebra.Order.Group.Int
import Mathlib.Algebra.Order.Group.Nat
import LoadReport.Proofs.Binary64.Partials
import LoadReport.Proofs.Binary64.Root
import LoadReport.Proofs.Summary.Outcome
import LoadReport.Proofs.Summary.RankOrder

/-!
# Keys that are not too large

What can go wrong with finite keys is a matter of magnitude: a product, a
square or a sum that binary64 does not hold. Here is a bound on the keys under
which nothing of the kind happens, for keys of either kind and up to the 2^53
samples that binary64 counts (`Within.exists_result`).

The bound is carried from step to step, each time as a power of two in units,
since powers of two come out of rounding as they went in.

- The mean is at most the largest key, whichever way it is computed
  (`Within.exists_mean`). In the sum behind it each key counts as often as it
  was sampled, which is what the 53 bits of the total are for; whole keys are
  added up without them (`KeysWithin.exists_mean_of_ints`).
- A deviation is at most twice the largest key, and so much is lost of the
  exponents when it is squared that the bound on the keys is found here
  (`exists_squaredDeviation`).
- There is a square for each bucket, and the partial sums of a sum may be
  twice as large as what they add up to. After that nothing becomes larger: the
  divisor is at least one, and roots are finite (`exists_spread`).

Of the samples only their mean and the number of buckets enter into this, so
the steps are put together from these two (`exists_summary_of_mean`).

Percentiles need no bound on the keys: every rank can be computed if the
total fits. But they have to be such that a notice can be given of those that are
dropped, or there is no summary, however small the keys are
(`ofRetained_of_not_writable`).
-/

namespace LoadReport

open Bucket Binary64

/-! ## Exact values and their sums -/

/-- How many units a number stands at; zero for what stands at none. -/
def Number.unitsOrZero (a : Number) : Int :=
  match a.position? with
  | some (.units n) => n
  | _ => 0

theorem Number.unitsOrZero_eq {a : Number} {u : Int} (h : a.position? = some (.units u)) :
    a.unitsOrZero = u := by
  unfold unitsOrZero
  rw [h]

theorem Number.unitsOrZero_int (n : Int) : (int n).unitsOrZero = n * unitsPerOne := rfl

theorem Number.natAbs_mul_unitsPerOne_le {n : Int} {k : Nat} (h : n.natAbs ≤ 2 ^ k) :
    (n * unitsPerOne).natAbs ≤ 2 ^ (k + unitExponent) := by
  rw [Int.natAbs_mul, Int.natAbs_natCast, unitsPerOne_eq, Nat.pow_add]
  exact Nat.mul_le_mul_right _ h

/-- Converting a number does not take it beyond a power of two. -/
theorem Number.exists_toBinary64_le {a : Number} {u : Int} {k : Nat}
    (ha : a.position? = some (.units u)) (hu : u.natAbs ≤ 2 ^ k) (hk : k < limitExponent) :
    ∃ x, a.toBinary64 = .ok x ∧ x.units? = some (roundRatio u 1)
      ∧ (roundRatio u 1).natAbs ≤ 2 ^ k := by
  have hconverted : (roundRatio u 1).natAbs ≤ 2 ^ k :=
    natAbs_roundRatio_le Nat.one_pos (hasMantissa_two_pow _) (by rwa [Nat.mul_one])
  obtain ⟨x, hx, hunits⟩ := Number.exists_toBinary64 ha
    (Nat.lt_of_le_of_lt hconverted (two_pow_lt_unitsLimit hk))
  exact ⟨x, hx, hunits, hconverted⟩

theorem List.natAbs_sum_le {α : Type} (f : α → Int) (items : List α) :
    (items.map f).sum.natAbs ≤ (items.map fun a => (f a).natAbs).sum := by
  induction items with
  | nil => exact Nat.le_refl 0
  | cons a items ih =>
      rw [List.map_cons, List.sum_cons, List.map_cons, List.sum_cons]
      omega

namespace Bucket

variable {buckets : List Bucket}

theorem count_le_total (h : ∀ b ∈ buckets, 0 ≤ b.2) {b : Bucket} (hb : b ∈ buckets) :
    b.2 ≤ total buckets := by
  refine List.single_le_sum (fun n hn => ?_) _ (List.mem_map_of_mem hb)
  obtain ⟨c, hc, rfl⟩ := List.mem_map.mp hn
  exact h c hc

theorem length_le_total (h : ∀ b ∈ buckets, 0 < b.2) : (buckets.length : Int) ≤ total buckets := by
  induction buckets with
  | nil => exact Int.le_refl 0
  | cons b buckets ih =>
      have hb := h b (List.mem_cons_self ..)
      have hrest := ih fun c hc => h c (List.mem_cons_of_mem _ hc)
      simp only [total, List.map_cons, List.sum_cons, List.length_cons] at hrest ⊢
      omega

/-- What is bounded for each sample is bounded for all of them. -/
theorem sum_natAbs_le {f : Bucket → Int} {bound : Nat}
    (h : ∀ b ∈ buckets, ((f b).natAbs : Int) ≤ bound * b.2) :
    (((buckets.map fun b => (f b).natAbs).sum : Nat) : Int) ≤ bound * total buckets := by
  induction buckets with
  | nil => exact Int.le_of_eq (Int.mul_zero _).symm
  | cons b buckets ih =>
      have hb := h b (List.mem_cons_self ..)
      have hrest := ih fun c hc => h c (List.mem_cons_of_mem _ hc)
      simp only [total, List.map_cons, List.sum_cons, Int.mul_add] at hrest ⊢
      omega

end Bucket

/-! ## Percentiles -/

namespace Percentile

variable (ascending : List Bucket) {total : Int} {n : Binary64}

/-- If the total fits, a request is refused only because it cannot be told. -/
theorem Refused.unwritable_of_fitInt (hfit : fitInt total = .ok n) (htotal : 0 ≤ total)
    {p : Number} {fault : Fault} (h : Refused total p fault) :
    p.isWritable = false ∧ fault = .tooManyDigits := by
  cases h with
  | unranked hrange h =>
      obtain ⟨r, hr⟩ := exists_rank hfit htotal hrange
      rw [hr] at h
      cases h
  | unwritable _ h => exact ⟨h, rfl⟩

theorem exists_resolve (hfit : fitInt total = .ok n) (htotal : 0 ≤ total) {ps : List Number}
    (hps : ∀ p ∈ ps, p.isWritable = true) (t : Table Number Number) :
    ∃ t', (resolve ascending total t ps).outcome = .ok t' := by
  cases h : (resolve ascending total t ps).outcome with
  | ok t' => exact ⟨t', rfl⟩
  | error fault =>
      obtain ⟨p, hp, hrefused⟩ := exists_of_resolve_eq_error h
      have hlong := (hrefused.unwritable_of_fitInt hfit htotal).1
      rw [hps p hp] at hlong
      cases hlong

/-- One request that cannot be told refuses them all. -/
theorem resolve_of_not_writable (hfit : fitInt total = .ok n) (htotal : 0 ≤ total)
    {ps : List Number} {p : Number} (hp : p ∈ ps) (hlong : p.isWritable = false) :
    (resolve ascending total [] ps).outcome = .error .tooManyDigits := by
  cases h : (resolve ascending total [] ps).outcome with
  | ok t' =>
      rw [isWritable_of_resolve (fun _ he => absurd he List.not_mem_nil) h p hp] at hlong
      cases hlong
  | error fault =>
      obtain ⟨q, -, hrefused⟩ := exists_of_resolve_eq_error h
      rw [(hrefused.unwritable_of_fitInt hfit htotal).2]

end Percentile

namespace Summary

/-! ## The bound -/

def KeysWithin (k : Nat) (buckets : List Bucket) : Prop :=
  ∀ b ∈ buckets, ∃ u : Int, b.1.position? = some (.units u) ∧ u.natAbs ≤ 2 ^ k

/-- Buckets with keys of at most `2 ^ k` units and samples whose number
binary64 holds. -/
structure Within (k : Nat) (buckets : List Bucket) : Prop where
  key : KeysWithin k buckets
  count_pos : ∀ b ∈ buckets, 0 < b.2
  total_le : total buckets ≤ (2 ^ significantBits : Nat)

variable {buckets : List Bucket} {k : Nat}

theorem KeysWithin.perm {xs ys : List Bucket} (h : KeysWithin k xs) (hperm : xs.Perm ys) :
    KeysWithin k ys :=
  fun b hb => h b (hperm.symm.subset hb)

theorem Within.perm {xs ys : List Bucket} (h : Within k xs) (hperm : xs.Perm ys) :
    Within k ys where
  key := h.key.perm hperm
  count_pos b hb := h.count_pos b (hperm.symm.subset hb)
  total_le := by
    rw [← total_perm hperm]
    exact h.total_le

theorem KeysWithin.of_ints (h : ∀ b ∈ buckets, ∃ n : Int, b.1 = .int n ∧ n.natAbs ≤ 2 ^ k) :
    KeysWithin (k + unitExponent) buckets := by
  intro b hb
  obtain ⟨n, hn, hle⟩ := h b hb
  exact ⟨n * unitsPerOne, by rw [hn]; rfl, Number.natAbs_mul_unitsPerOne_le hle⟩

theorem KeysWithin.mono {j : Nat} (h : KeysWithin k buckets) (hkj : k ≤ j) :
    KeysWithin j buckets := by
  intro b hb
  obtain ⟨u, hu, hle⟩ := h b hb
  exact ⟨u, hu, Nat.le_trans hle (Nat.pow_le_pow_right (by decide) hkj)⟩

/-! ## The mean -/

/-- The product of a key and its count, rounded, in units. -/
def productUnits (b : Bucket) : Int := roundRatio (b.1.unitsOrZero * b.2) 1

theorem KeysWithin.natAbs_mul_le (h : KeysWithin k buckets) {b : Bucket} (hb : b ∈ buckets)
    (hcount : 0 ≤ b.2) : ((b.1.unitsOrZero * b.2).natAbs : Int) ≤ (2 ^ k : Nat) * b.2 := by
  obtain ⟨u, hu, hle⟩ := h b hb
  rw [Number.unitsOrZero_eq hu, Int.natAbs_mul, Int.natCast_mul, Int.natAbs_of_nonneg hcount]
  exact Int.mul_le_mul_of_nonneg_right (Int.ofNat_le.mpr hle) hcount

theorem Within.exists_times (h : Within k buckets) (hk : k + significantBits < limitExponent)
    {b : Bucket} (hb : b ∈ buckets) :
    ∃ x, b.1.times b.2 = .ok x ∧ x.units? = some (productUnits b)
      ∧ ((productUnits b).natAbs : Int) ≤ (2 ^ k : Nat) * b.2 := by
  obtain ⟨u, hu, -⟩ := h.key b hb
  have hproduct := h.key.natAbs_mul_le hb (Int.le_of_lt (h.count_pos b hb))
  have htotal := count_le_total (fun c hc => Int.le_of_lt (h.count_pos c hc)) hb
  obtain ⟨c, hc⟩ := Int.eq_ofNat_of_zero_le (Int.le_of_lt (h.count_pos b hb))
  have hcle : c ≤ 2 ^ significantBits := Int.ofNat_le.mp (hc ▸ Int.le_trans htotal h.total_le)
  unfold productUnits
  rw [Number.unitsOrZero_eq hu, hc] at hproduct ⊢
  rw [← Int.natCast_mul] at hproduct ⊢
  have hbound : (roundRatio (u * c) 1).natAbs ≤ 2 ^ k * c := by
    refine natAbs_roundRatio_le Nat.one_pos ?_ ?_
    · rw [Nat.mul_comm]
      exact (hasMantissa_of_le hcle).mul_two_pow k
    · rw [Nat.mul_one]
      exact Int.ofNat_le.mp hproduct
  have hlt : (roundRatio (u * c) 1).natAbs < unitsLimit := by
    refine Nat.lt_of_le_of_lt (Nat.le_trans hbound (Nat.mul_le_mul_left _ hcle)) ?_
    rw [← Nat.pow_add]
    exact two_pow_lt_unitsLimit hk
  obtain ⟨x, hx, hunits⟩ := Number.exists_times hu hcle hlt
  exact ⟨x, hx, hunits, Int.ofNat_le.mpr hbound⟩

theorem sum_wholeProduct_mul (h : (buckets.all fun b => b.1.isInt) = true) :
    (buckets.map wholeProduct).sum * unitsPerOne = weigh Number.unitsOrZero buckets := by
  induction buckets with
  | nil => exact Int.zero_mul _
  | cons b buckets ih =>
      rw [List.all_cons, Bool.and_eq_true] at h
      obtain ⟨key, count⟩ := b
      rw [List.map_cons, List.sum_cons, Int.add_mul, ih h.2, weigh_cons]
      cases key with
      | int n => rw [Number.unitsOrZero_int, wholeProduct, Int.mul_right_comm]
      | float x => cases h.1

/-- Whole keys are added up exactly, so that any number of samples will do. -/
theorem KeysWithin.exists_mean_of_ints (h : KeysWithin k buckets)
    (hcount : ∀ b ∈ buckets, 0 ≤ b.2) (hk : k < limitExponent) {n : Nat}
    (hn : total buckets = n) (hpos : 0 < n) (hints : (buckets.all fun b => b.1.isInt) = true) :
    ∃ x u, quotient (buckets.map wholeProduct).sum n = .ok x ∧ x.units? = some u
      ∧ u.natAbs ≤ 2 ^ k := by
  have hbound : (weigh Number.unitsOrZero buckets).natAbs ≤ 2 ^ k * n := by
    have hsum := sum_natAbs_le fun b hb => h.natAbs_mul_le hb (hcount b hb)
    rw [hn, ← Int.natCast_mul] at hsum
    exact Nat.le_trans (List.natAbs_sum_le _ _) (Int.ofNat_le.mp hsum)
  have hround := natAbs_roundRatio_le hpos (hasMantissa_two_pow k) hbound
  rw [← sum_wholeProduct_mul hints] at hround
  obtain ⟨x, hx, hunits⟩ := exists_quotient hpos
    (Nat.lt_of_le_of_lt hround (two_pow_lt_unitsLimit hk))
  exact ⟨x, _, hx, hunits, hround⟩

theorem Within.exists_mean_of_sum (h : Within k buckets)
    (hk : k + significantBits + 1 < limitExponent) {n : Nat} (hn : total buckets = n)
    (hpos : 0 < n) :
    ∃ x u, (ExactSum.sumBy (fun b : Bucket => b.1.times b.2) buckets >>= fun sum =>
        sum.overCount n) = .ok x ∧ x.units? = some u ∧ u.natAbs ≤ 2 ^ k := by
  have hle : n ≤ 2 ^ significantBits := Int.ofNat_le.mp (hn ▸ h.total_le)
  have hsummand : ∀ b ∈ buckets, ∃ x, b.1.times b.2 = .ok x
      ∧ x.units? = some (productUnits b) := by
    intro b hb
    obtain ⟨x, hx, hunits, -⟩ := h.exists_times (by omega) hb
    exact ⟨x, hx, hunits⟩
  have hsum : (buckets.map fun b => (productUnits b).natAbs).sum ≤ 2 ^ k * n := by
    have hsum := sum_natAbs_le fun b hb => by
      obtain ⟨_, -, -, hbound⟩ := h.exists_times (by omega) hb
      exact hbound
    rw [hn, ← Int.natCast_mul] at hsum
    exact Int.ofNat_le.mp hsum
  have hall : 2 ^ k * n ≤ 2 ^ (k + significantBits) := by
    rw [Nat.pow_add]
    exact Nat.mul_le_mul_left _ hle
  have hsumBy := ExactSum.sumBy_of_units hk hsummand (Nat.le_trans hsum hall)
  have hexact : (buckets.map productUnits).sum.natAbs ≤ 2 ^ k * n :=
    Nat.le_trans (List.natAbs_sum_le _ _) hsum
  generalize (buckets.map productUnits).sum = exact at hsumBy hexact
  have hmantissa : HasMantissa (2 ^ k * n) := by
    rw [Nat.mul_comm]
    exact (hasMantissa_of_le hle).mul_two_pow _
  have hrounded : (roundRatio exact 1).natAbs ≤ 2 ^ k * n :=
    natAbs_roundRatio_le Nat.one_pos hmantissa (by rwa [Nat.mul_one])
  have hsumLt : (roundRatio exact 1).natAbs < unitsLimit :=
    Nat.lt_of_le_of_lt (Nat.le_trans hrounded hall) (two_pow_lt_unitsLimit (by omega))
  have hround := natAbs_roundRatio_le hpos (hasMantissa_two_pow k) hrounded
  obtain ⟨x, hx, hunits⟩ := exists_overCount (units?_ofSignedUnits false hsumLt) hpos hle
    (Nat.lt_of_le_of_lt hround (two_pow_lt_unitsLimit (by omega)))
  exact ⟨x, _, Except.bind_eq_ok_iff.mpr ⟨_, hsumBy, hx⟩, hunits, hround⟩

/-- **The mean is at most the largest key**, in magnitude. -/
theorem Within.exists_mean (h : Within k buckets) (hk : k + significantBits + 1 < limitExponent)
    {n : Nat} (hn : total buckets = n) (hpos : 0 < n) :
    ∃ x u, meanOf buckets n = .ok x ∧ x.units? = some u ∧ u.natAbs ≤ 2 ^ k := by
  unfold meanOf
  split
  · next hints =>
      exact h.key.exists_mean_of_ints (fun b hb => Int.le_of_lt (h.count_pos b hb)) (by omega) hn
        hpos hints
  · exact h.exists_mean_of_sum hk hn hpos

/-! ## The spread -/

/-- The squared deviation, in units, of a number of `u` units from one of `v`
units. -/
def squareUnits (u v : Int) : Nat :=
  let deviation := (roundRatio (roundRatio u 1 - v) 1).natAbs
  roundQuotient (deviation * deviation) unitsPerOne

theorem exists_squaredDeviation {mean : Binary64} {key : Number} {u v : Int} {j : Nat}
    (hk : k + 1 < limitExponent) (hj : 2 * (k + 1) ≤ j + unitExponent) (hj' : j < limitExponent)
    (hkey : key.position? = some (.units u)) (hu : u.natAbs ≤ 2 ^ k)
    (hmean : mean.units? = some v) (hv : v.natAbs ≤ 2 ^ k) :
    ∃ x, squaredDeviation mean key = .ok x ∧ x.units? = some (squareUnits u v : Int)
      ∧ squareUnits u v ≤ 2 ^ j := by
  obtain ⟨y, hy, hyunits, hconverted⟩ := Number.exists_toBinary64_le hkey hu (by omega)
  have hdifference : (roundRatio (roundRatio u 1 - v) 1).natAbs ≤ 2 ^ (k + 1) := by
    refine natAbs_roundRatio_le Nat.one_pos (hasMantissa_two_pow _) ?_
    rw [Nat.pow_succ']
    omega
  have hsub := units?_sub hyunits hmean (Nat.lt_of_le_of_lt hdifference (two_pow_lt_unitsLimit hk))
  unfold squareUnits
  dsimp only
  generalize roundRatio (roundRatio u 1 - v) 1 = d at hdifference hsub
  have hsquare : roundQuotient (d.natAbs * d.natAbs) unitsPerOne ≤ 2 ^ j := by
    refine roundQuotient_le Number.unitsPerOne_pos (hasMantissa_two_pow _) ?_
    rw [unitsPerOne_eq, ← Nat.pow_add]
    refine Nat.le_trans (Nat.mul_le_mul hdifference hdifference) ?_
    rw [← Nat.pow_add]
    exact Nat.pow_le_pow_right (by decide) (by omega)
  have hratio : roundRatio (d * d) unitsPerOne
      = (roundQuotient (d.natAbs * d.natAbs) unitsPerOne : Int) := by
    rw [← Int.natAbs_mul_self, roundRatio_natCast]
  obtain ⟨x, hx, hxunits⟩ := exists_square hsub (by
    rw [hratio, Int.natAbs_natCast]
    exact Nat.lt_of_le_of_lt hsquare (two_pow_lt_unitsLimit hj'))
  rw [hratio] at hxunits
  refine ⟨x, ?_, hxunits, hsquare⟩
  unfold squaredDeviation Number.minus
  rw [hy]
  exact hx

/-- The sum of `2 ^ e` squares, each of at most `2 ^ j` units. -/
theorem exists_sum_of_squares {squares : List Binary64} {e j : Nat}
    (hj : e + j + 1 < limitExponent)
    (h : ∀ x ∈ squares, ∃ w : Nat, x.units? = some (w : Int) ∧ w ≤ 2 ^ j)
    (hlength : squares.length ≤ 2 ^ e) :
    ∃ exact : Nat, ExactSum.sumBy Except.ok squares = .ok (ofSignedUnits false exact)
      ∧ exact ≤ 2 ^ (e + j) ∧ (exact : Int) = (squares.map unitsOrZero).sum := by
  have hvalue : ∀ x ∈ squares, x.units? = some (unitsOrZero x) ∧ 0 ≤ unitsOrZero x
      ∧ (unitsOrZero x).natAbs ≤ 2 ^ j := by
    intro x hx
    obtain ⟨w, hw, hwle⟩ := h x hx
    have hself : unitsOrZero x = w := by rw [unitsOrZero, hw, Option.getD_some]
    rw [hself]
    exact ⟨hw, Int.natCast_nonneg w, hwle⟩
  have hsum : (squares.map fun x => (unitsOrZero x).natAbs).sum ≤ 2 ^ (e + j) := by
    have hcard := List.sum_le_card_nsmul (squares.map fun x => (unitsOrZero x).natAbs) (2 ^ j)
      (List.forall_mem_map.mpr fun x hx => (hvalue x hx).2.2)
    rw [List.length_map, smul_eq_mul] at hcard
    rw [Nat.pow_add]
    exact Nat.le_trans hcard (Nat.mul_le_mul_right _ hlength)
  have hnonneg : 0 ≤ (squares.map unitsOrZero).sum :=
    List.sum_nonneg (List.forall_mem_map.mpr fun x hx => (hvalue x hx).2.1)
  obtain ⟨exact, hexact⟩ := Int.eq_ofNat_of_zero_le hnonneg
  have hbound := Nat.le_trans (List.natAbs_sum_le unitsOrZero squares) hsum
  have hsumBy := ExactSum.sumBy_of_units hj (fun x hx => ⟨x, rfl, (hvalue x hx).1⟩) hsum
  rw [hexact, Int.natAbs_natCast] at hbound
  rw [hexact] at hsumBy
  exact ⟨exact, hsumBy, hbound, hexact.symm⟩

/-- **The squares have a sum and the sum has a root.** There may be many more
samples than squares, as many as fit. -/
theorem exists_spread {squares : List Binary64} {n e j : Nat} (hj : e + j + 1 < limitExponent)
    (h : ∀ x ∈ squares, ∃ w : Nat, x.units? = some (w : Int) ∧ w ≤ 2 ^ j)
    (hlength : squares.length ≤ 2 ^ e) (hpos : 0 < n)
    (hfit : roundQuotient (n * unitsPerOne) 1 < unitsLimit) :
    ∃ x, spreadOf squares n = .ok x ∧ x.isFinite = true ∧ x.isBelowZero = false := by
  unfold spreadOf
  split
  · obtain ⟨exact, hsumBy, hexact, -⟩ := exists_sum_of_squares hj h hlength
    have hrounded : roundQuotient exact 1 ≤ 2 ^ (e + j) :=
      roundQuotient_le Nat.one_pos (hasMantissa_two_pow _) (by rwa [Nat.mul_one])
    have hsum := units?_ofSignedUnits false (n := exact) (by
      rw [roundRatio_natCast, Int.natAbs_natCast]
      exact Nat.lt_of_le_of_lt hrounded (two_pow_lt_unitsLimit (by omega)))
    rw [roundRatio_natCast] at hsum
    obtain ⟨variance, v, hvariance, hunits, -⟩ := exists_overCount_le hsum hpos hfit
    obtain ⟨x, hx, hsign⟩ :=
      exists_root (isFinite_of_units? hunits) (isBelowZero_of_units? hunits)
    refine ⟨x, ?_, hsign⟩
    exact Except.bind_eq_ok_iff.mpr ⟨_, hsumBy, Except.bind_eq_ok_iff.mpr ⟨_, hvariance, hx⟩⟩
  · exact ⟨_, rfl, rfl, rfl⟩

/-! ## The summary -/

theorem exists_greatest_eq (hne : buckets ≠ []) :
    ∃ b ∈ buckets, greatest buckets = b.1.toBinary64 := by
  obtain ⟨front, b, rfl⟩ := (List.eq_nil_or_concat buckets).resolve_left hne
  rw [List.concat_eq_append] at *
  refine ⟨b, List.mem_append_right _ (List.mem_singleton_self b), ?_⟩
  rw [greatest, List.getLastD_concat]

theorem KeysWithin.exists_greatest (h : KeysWithin k buckets) (hk : k < limitExponent)
    (hne : buckets ≠ []) : ∃ x, greatest buckets = .ok x ∧ x.isFinite = true := by
  obtain ⟨b, hb, hgreatest⟩ := exists_greatest_eq hne
  obtain ⟨u, hu, hle⟩ := h b hb
  obtain ⟨x, hx, hunits, -⟩ := Number.exists_toBinary64_le hu hle hk
  exact ⟨x, hgreatest.trans hx, isFinite_of_units? hunits⟩

/-- Nothing in a summary is infinite or NaN, and its spread is not below
zero. -/
structure IsFinite (s : Summary) : Prop where
  mean : s.mean.isFinite = true
  stddev : s.stddev.isFinite = true
  stddev_nonneg : s.stddev.isBelowZero = false
  max : s.max.isFinite = true

theorem exists_fitInt_of_lt {n : Nat} (h : roundQuotient (n * unitsPerOne) 1 < unitsLimit) :
    ∃ m, fitInt n = .ok m := by
  obtain ⟨m, hm, -⟩ := fitInt_of_units (n := n) (by
    rwa [← Int.natCast_mul, roundRatio_natCast, Int.natAbs_natCast])
  exact ⟨m, hm⟩

/-- A request that cannot be told ends every computation whose total fits. -/
theorem ofRetained_of_not_writable {ps : List Number} {p : Number} {m : Binary64}
    (hpopulated : 1 ≤ total buckets) (hfit : fitInt (total buckets) = .ok m) (hp : p ∈ ps)
    (hlong : p.isWritable = false) : ofRetained buckets ps = .error .tooManyDigits := by
  unfold ofRetained
  dsimp only
  rw [if_neg (by omega),
    Percentile.resolve_of_not_writable (Arrangement.arrange buckets) hfit (by omega) hp hlong]
  rfl

/-- **The mean is all that is left to bound.** If it is at most the largest
key and there are not too many buckets, then there is a summary. Here `k` is
the exponent of the keys, `j` that of their squares, and `e` that of the number
of buckets. -/
theorem exists_summary_of_mean {n e j : Nat} (hkeys : KeysWithin k buckets)
    (hk : k + 1 < limitExponent) (hsquare : 2 * (k + 1) ≤ j + unitExponent)
    (hj : e + j + 1 < limitExponent) (hlength : buckets.length ≤ 2 ^ e)
    (hn : total buckets = n) (hpos : 0 < n)
    (hfit : roundQuotient (n * unitsPerOne) 1 < unitsLimit)
    (hmean : ∃ x u, meanOf (Arrangement.arrange buckets) n = .ok x ∧ x.units? = some u
      ∧ u.natAbs ≤ 2 ^ k) {ps : List Number} (hps : ∀ p ∈ ps, p.isWritable = true) :
    ∃ s, ofRetained buckets ps = .ok (some s) ∧ s.IsFinite := by
  have hperm := Arrangement.arrange_perm buckets
  have hne : Arrangement.arrange buckets ≠ [] := by
    refine ne_nil_of_total_pos ?_
    rw [total_perm hperm]
    omega
  obtain ⟨m, hm⟩ := exists_fitInt_of_lt hfit
  obtain ⟨resolved, hresolved⟩ := Percentile.exists_resolve (Arrangement.arrange buckets)
    hm (Int.natCast_nonneg n) hps []
  obtain ⟨mean, v, hmean, hv, hvle⟩ := hmean
  have hsquares : ∀ b ∈ buckets, ∃ d, squaredDeviation mean b.1 = .ok d
      ∧ ∃ w : Nat, d.units? = some (w : Int) ∧ w ≤ 2 ^ j := by
    intro b hb
    obtain ⟨u, hu, hule⟩ := hkeys b hb
    obtain ⟨d, hd, hw, hwle⟩ := exists_squaredDeviation (j := j) hk hsquare (by omega) hu hule
      hv hvle
    exact ⟨d, hd, _, hw, hwle⟩
  obtain ⟨deviations, hdeviations, hbounded⟩ := Except.exists_mapM hsquares
  have hcount : deviations.length ≤ 2 ^ e := by
    have hlen := congrArg List.length (Except.mapM_eq_ok_iff.mp hdeviations)
    rw [List.length_map, List.length_map] at hlen
    omega
  obtain ⟨stddev, hstddev, hfinite, hsign⟩ := exists_spread hj hbounded hcount hpos hfit
  obtain ⟨max, hmax, hmaxfinite⟩ := (hkeys.perm hperm.symm).exists_greatest (by omega) hne
  rw [← hn] at hresolved hmean hstddev
  exact ⟨⟨mean, stddev, max, resolved⟩, ofRetained_eq_ok_some_iff.mpr
    ⟨by omega, hresolved, hmean, ⟨deviations, hdeviations, hstddev⟩, hmax⟩,
    ⟨isFinite_of_units? hv, hfinite, hsign, hmaxfinite⟩⟩

/-- The largest exponent for which the steps above go through. -/
def keyExponent : Nat := 1557

/-- How large squared deviations then are. -/
def squareExponent : Nat := 2042

/-- **Keys up to 2^483 have a summary**, if there are any samples. -/
theorem Within.exists_result (h : Within keyExponent buckets) {ps : List Number}
    (hps : ∀ p ∈ ps, p.isWritable = true) :
    ∃ result, ofRetained buckets ps = .ok result := by
  by_cases hempty : total buckets < 1
  · exact ⟨none, ofRetained_eq_ok_none_iff.mpr hempty⟩
  · obtain ⟨n, hn⟩ := Int.eq_ofNat_of_zero_le (show 0 ≤ total buckets by omega)
    have hpos : 0 < n := by omega
    have hle : n ≤ 2 ^ significantBits := Int.ofNat_le.mp (hn ▸ h.total_le)
    have hperm := Arrangement.arrange_perm buckets
    have hlength : buckets.length ≤ 2 ^ significantBits := by
      have hcount := length_le_total h.count_pos
      omega
    have hfit := roundQuotient_lt_unitsLimit (by decide) hle
    have hmean := (h.perm hperm.symm).exists_mean (by decide) ((total_perm hperm).trans hn) hpos
    obtain ⟨s, hs, -⟩ := exists_summary_of_mean (j := squareExponent) h.key (by decide) (by decide)
      (by decide) hlength hn hpos hfit hmean hps
    exact ⟨some s, hs⟩

end Summary
end LoadReport
