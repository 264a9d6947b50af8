import Mathlib.Algebra.BigOperators.Ring.Finset
import LoadReport.Proofs.Summary.Magnitude
import LoadReport.Proofs.Summary.Resolution
import LoadReport.Proofs.Summary.Samples

/-!
# No spread

Whole keys that binary64 holds exactly, up to 2^53 samples, have no spread if
there are at most two samples or all keys are one, and only then. It has to be
excluded that a difference is lost on the way: in the mean, the deviations,
their squares, the sum of these, its quotient or the root.

- **Different keys are far from the mean.** Two of them are one apart or more,
  so one of them is half of one away from the mean, however that was rounded
  (`exists_far`). Rounding keeps that (`le_squareUnits`), since a power of two
  is rounded to itself.
- **A square is not divided away.** The square that is left is a quarter, hence
  2^1072 units, and these are divided by 2^53 at most (`rootMeanUnits_pos`).
- **One key is its own mean**, without rounding, and has no deviation.
-/

namespace LoadReport

open Bucket Binary64 Percentile

/-! ## One deviation -/

namespace Summary

theorem squareUnits_self {n : Int} (h : n.natAbs ≤ 2 ^ significantBits) :
    squareUnits (n * unitsPerOne) (n * unitsPerOne) = 0 := by
  unfold squareUnits
  rw [roundRatio_one_of_hasMantissa (hasMantissa_mul_unitsPerOne h), Int.sub_self]
  exact roundQuotient_zero Number.unitsPerOne_pos

/-- Of two whole numbers one is at least a half away. -/
theorem exists_far {m n : Int} (h : m ≠ n) (v : Int) :
    halfUnits ≤ (m * unitsPerOne - v).natAbs ∨ halfUnits ≤ (n * unitsPerOne - v).natAbs := by
  have hapart : ∀ {a b : Int}, a < b → a * unitsPerOne + unitsPerOne ≤ b * unitsPerOne := by
    intro a b hab
    have hstep : (a + 1) * (unitsPerOne : Int) ≤ b * unitsPerOne :=
      Int.mul_le_mul_of_nonneg_right hab (Int.natCast_nonneg _)
    rwa [Int.add_mul, Int.one_mul] at hstep
  -- nearer than a half to `v` on both sides, they would be nearer than one to each other
  have hone := unitsPerOne_eq_two_mul
  rcases Int.lt_or_gt_of_ne h with hlt | hgt
  · have hmn := hapart hlt
    omega
  · have hnm := hapart hgt
    omega

/-- The square of a half, in units. -/
def quarterUnits : Nat := 2 ^ (unitExponent - 2)

theorem le_squareUnits {n v : Int} (hn : n.natAbs ≤ 2 ^ significantBits)
    (hfar : halfUnits ≤ (n * unitsPerOne - v).natAbs) :
    quarterUnits ≤ squareUnits (n * unitsPerOne) v := by
  have hdeviation : halfUnits ≤ (roundRatio (n * unitsPerOne - v) 1).natAbs := by
    rw [natAbs_roundRatio]
    refine le_roundQuotient Nat.one_pos (hasMantissa_two_pow _) ?_
    rwa [Nat.mul_one]
  have hquarter : quarterUnits * unitsPerOne = halfUnits * halfUnits := by
    rw [quarterUnits, halfUnits, unitsPerOne_eq, ← Nat.pow_add, ← Nat.pow_add]
    exact congrArg (2 ^ ·) (by decide)
  unfold squareUnits
  rw [roundRatio_one_of_hasMantissa (hasMantissa_mul_unitsPerOne hn)]
  refine le_roundQuotient Number.unitsPerOne_pos (hasMantissa_two_pow _) ?_
  rw [hquarter]
  exact Nat.mul_le_mul hdeviation hdeviation

/-! ## The root of a sum of squares -/

/-- The root of a sum over `n`, in units. All three are rounded. -/
def rootMeanUnits (sum n : Nat) : Nat :=
  roundRoot (roundQuotient (roundQuotient sum 1) n * unitsPerOne)

variable {buckets : List Bucket} {ps : List Number} {s : Summary} {v : Int} {n : Nat}

theorem rootMeanUnits_zero (hn : 0 < n) : rootMeanUnits 0 n = 0 := by
  rw [rootMeanUnits, roundQuotient_zero Nat.one_pos, roundQuotient_zero hn, Nat.zero_mul,
    roundRoot_zero]

/-- A sum that the number of samples goes into is not divided away. -/
theorem rootMeanUnits_pos {sum : Nat} (hn : 0 < n) (hle : n ≤ 2 ^ significantBits)
    (h : n ≤ sum) : 0 < rootMeanUnits sum n := by
  have hrounded : n ≤ roundQuotient sum 1 :=
    le_roundQuotient Nat.one_pos (hasMantissa_of_le hle) (by rwa [Nat.mul_one])
  have hvariance : 1 ≤ roundQuotient (roundQuotient sum 1) n :=
    le_roundQuotient hn (hasMantissa_two_pow 0) (by rwa [Nat.one_mul])
  exact roundRoot_pos (Nat.mul_pos hvariance Number.unitsPerOne_pos)

theorem exists_rootMean {squares : List Binary64} {e j : Nat} (hj : e + j + 1 < limitExponent)
    (h : ∀ x ∈ squares, ∃ w : Nat, x.units? = some (w : Int) ∧ w ≤ 2 ^ j)
    (hlength : squares.length ≤ 2 ^ e) (hmany : 2 < n) (hle : n ≤ 2 ^ significantBits) :
    ∃ (sum : Nat) (x : Binary64), (sum : Int) = (squares.map unitsOrZero).sum
      ∧ spreadOf squares n = .ok x ∧ x.units? = some (rootMeanUnits sum n : Int) := by
  obtain ⟨sum, hsumBy, hbound, hsum⟩ := exists_sum_of_squares hj h hlength
  have hpos : 0 < n := by omega
  have hrounded : roundQuotient sum 1 ≤ 2 ^ (e + j) :=
    roundQuotient_le Nat.one_pos (hasMantissa_two_pow _) (by rwa [Nat.mul_one])
  have hlt : roundQuotient sum 1 < unitsLimit :=
    Nat.lt_of_le_of_lt hrounded (two_pow_lt_unitsLimit (by omega))
  have hquotient : roundQuotient (roundQuotient sum 1) n ≤ roundQuotient sum 1 :=
    roundQuotient_le hpos (roundQuotient_hasMantissa _ _) (Nat.le_mul_of_pos_right _ hpos)
  have hunits := units?_ofSignedUnits false (n := sum) (by
    rwa [roundRatio_natCast, Int.natAbs_natCast])
  rw [roundRatio_natCast] at hunits
  obtain ⟨variance, hvariance, hvunits⟩ := exists_overCount hunits hpos hle (by
    rw [roundRatio_natCast, Int.natAbs_natCast]
    exact Nat.lt_of_le_of_lt hquotient hlt)
  rw [roundRatio_natCast] at hvunits
  obtain ⟨x, hx, hroot⟩ := exists_root_units hvunits
  refine ⟨sum, x, hsum, ?_, hroot⟩
  rw [spreadOf, if_pos (by omega)]
  exact Except.bind_eq_ok_iff.mpr ⟨_, hsumBy, Except.bind_eq_ok_iff.mpr ⟨_, hvariance, hx⟩⟩

/-! ## Mean and spread in units -/

/-- The spread of `n` samples around a mean of `v` units, in units. -/
def spreadUnits (buckets : List Bucket) (v : Int) (n : Nat) : Nat :=
  rootMeanUnits (buckets.map fun b => squareUnits b.1.unitsOrZero v).sum n

theorem spreadUnits_eq_zero (hn : 0 < n)
    (h : ∀ b ∈ buckets, squareUnits b.1.unitsOrZero v = 0) : spreadUnits buckets v n = 0 := by
  have hsum : (buckets.map fun b => squareUnits b.1.unitsOrZero v).sum = 0 :=
    List.sum_eq_zero (List.forall_mem_map.mpr h)
  rw [spreadUnits, hsum, rootMeanUnits_zero hn]

theorem spreadUnits_pos {b : Bucket} (hb : b ∈ buckets) (hn : 0 < n)
    (hle : n ≤ 2 ^ significantBits) (h : n ≤ squareUnits b.1.unitsOrZero v) :
    0 < spreadUnits buckets v n := by
  have hmem : squareUnits b.1.unitsOrZero v
      ∈ buckets.map fun b => squareUnits b.1.unitsOrZero v := List.mem_map_of_mem hb
  have hsum := List.single_le_sum (fun _ _ => Nat.zero_le _) _ hmem
  exact rootMeanUnits_pos hn hle (Nat.le_trans h hsum)

theorem Within.exists_mean_units (h : Within keyExponent buckets) (hs : Assembled buckets ps s) :
    ∃ v, s.mean.units? = some v ∧ v.natAbs ≤ 2 ^ keyExponent := by
  obtain ⟨n, hn, hpos⟩ := hs.exists_total
  have hperm := Arrangement.arrange_perm buckets
  obtain ⟨x, v, hx, hv, hle⟩ := (h.perm hperm.symm).exists_mean (by decide)
    ((total_perm hperm).trans hn) hpos
  have hmean := hs.mean
  rw [hn, hx] at hmean
  obtain rfl := Except.ok.inj hmean
  exact ⟨v, hv, hle⟩

section Squares

variable {mean : Binary64} {squares : List Binary64}

theorem Within.units?_square (h : Within keyExponent buckets) (hv : mean.units? = some v)
    (hvle : v.natAbs ≤ 2 ^ keyExponent) {b : Bucket} (hb : b ∈ buckets) {d : Binary64}
    (hd : squaredDeviation mean b.1 = .ok d) :
    d.units? = some (squareUnits b.1.unitsOrZero v : Int)
      ∧ squareUnits b.1.unitsOrZero v ≤ 2 ^ squareExponent := by
  obtain ⟨u, hu, hule⟩ := h.key b hb
  obtain ⟨d', hd', hunits⟩ := exists_squaredDeviation (j := squareExponent) (by decide)
    (by decide) (by decide) hu hule hv hvle
  obtain rfl := Except.ok.inj (hd.symm.trans hd')
  rwa [Number.unitsOrZero_eq hu]

theorem Within.map_squares (h : Within keyExponent buckets) (hv : mean.units? = some v)
    (hvle : v.natAbs ≤ 2 ^ keyExponent)
    (hsquares : buckets.mapM (fun b => squaredDeviation mean b.1) = .ok squares) :
    squares.map unitsOrZero = buckets.map fun b => (squareUnits b.1.unitsOrZero v : Int) := by
  refine Except.map_eq_of_mapM hsquares fun b hb d hd => ?_
  rw [unitsOrZero, (h.units?_square hv hvle hb hd).1, Option.getD_some]

end Squares

theorem Within.units?_stddev (h : Within keyExponent buckets) (hs : Assembled buckets ps s)
    (hv : s.mean.units? = some v) (hvle : v.natAbs ≤ 2 ^ keyExponent) (hn : total buckets = n)
    (hmany : 2 < n) : s.stddev.units? = some (spreadUnits buckets v n : Int) := by
  have hle : n ≤ 2 ^ significantBits := Int.ofNat_le.mp (hn ▸ h.total_le)
  obtain ⟨squares, hsquares, hspread⟩ := hs.spread
  have hunits := h.map_squares hv hvle hsquares
  have hbounded : ∀ d ∈ squares, ∃ w : Nat, d.units? = some (w : Int) ∧ w ≤ 2 ^ squareExponent := by
    intro d hd
    obtain ⟨b, hb, hbd⟩ := Except.exists_of_mem_mapM hsquares hd
    exact ⟨_, h.units?_square hv hvle hb hbd⟩
  have hlength : squares.length ≤ 2 ^ significantBits := by
    have hcount := length_le_total h.count_pos
    have hsame := congrArg List.length hunits
    rw [List.length_map, List.length_map] at hsame
    omega
  obtain ⟨sum, x, hsum, hx, hxunits⟩ := exists_rootMean (by decide) hbounded hlength hmany hle
  rw [hn, hx] at hspread
  obtain rfl := Except.ok.inj hspread
  have hcast : (buckets.map fun b => (squareUnits b.1.unitsOrZero v : Int)).sum
      = ((buckets.map fun b => squareUnits b.1.unitsOrZero v).sum : Nat) := by
    rw [Nat.cast_list_sum, List.map_map]
    rfl
  rw [hunits, hcast] at hsum
  rw [hxunits, Int.ofNat_inj.mp hsum]
  rfl

theorem same_zero_iff {x : Binary64} {u : Int} (hx : x.units? = some u) :
    (Number.float x).same (.int 0) = true ↔ u = 0 := by
  rw [Number.same_iff]
  constructor
  · rintro ⟨p, hp, hzero⟩
    obtain rfl := Option.some.inj ((position?_of_units? hx).symm.trans hp)
    rw [Position.units.inj (Option.some.inj hzero).symm, Int.zero_mul]
  · rintro rfl
    have hzero : (Number.int 0).position? = some (.units (0 * unitsPerOne)) := rfl
    rw [Int.zero_mul] at hzero
    exact ⟨_, position?_of_units? hx, hzero⟩

/-! ## One key -/

theorem Assembled.fitInt_of_one_key (hs : Assembled buckets ps s)
    (hpos : ∀ b ∈ buckets, 0 < b.2) {m : Int} (hall : ∀ b ∈ buckets, b.1 = .int m) :
    fitInt m = .ok s.mean ∧ fitInt m = .ok s.max ∧ ∀ e ∈ s.percentiles, e.2 = .int m := by
  have hwhole : Whole buckets := ⟨fun b hb => by rw [hall b hb]; rfl, hpos⟩
  have hrule := hs.followsRule hwhole.isNan hpos
  obtain ⟨n, hn, hsome⟩ := hs.exists_total
  obtain ⟨b, hb, -, hmax⟩ := hrule.max
  rw [hall b hb] at hmax
  have hsum : weigh wholeValue buckets = m * n := by
    rw [← hn, ← weigh_const]
    exact weigh_congr fun c hc => by rw [hall c hc, wholeValue_int]
  have hmean := hs.quotient_eq hwhole.isInt
  rw [hn, hsum, quotient_mul_of_fitInt hsome hmax] at hmean
  refine ⟨hmax.trans hmean, hmax, fun e he => ?_⟩
  obtain ⟨-, count, hmem⟩ := hrule.requested e he
  exact hall _ hmem

/-! ## No spread -/

/-- Whole keys and a number of samples that binary64 holds exactly. -/
structure Exact (buckets : List Bucket) : Prop where
  key : ∀ b ∈ buckets, ∃ n : Int, b.1 = .int n ∧ n.natAbs ≤ 2 ^ significantBits
  count_pos : ∀ b ∈ buckets, 0 < b.2
  total_le : total buckets ≤ (2 ^ significantBits : Nat)

theorem Exact.within (h : Exact buckets) : Within keyExponent buckets where
  key := (KeysWithin.of_ints h.key).mono (by decide)
  count_pos := h.count_pos
  total_le := h.total_le

theorem Exact.spreadUnits_of_one_key (h : Exact buckets) (hs : Assembled buckets ps s)
    (hv : s.mean.units? = some v) (hn : 0 < n)
    (hone : ∀ b ∈ buckets, ∀ c ∈ buckets, b.1 = c.1) : spreadUnits buckets v n = 0 := by
  refine spreadUnits_eq_zero hn fun b hb => ?_
  obtain ⟨m, hm, hle⟩ := h.key b hb
  have hall : ∀ c ∈ buckets, c.1 = .int m := fun c hc => (hone c hc b hb).trans hm
  obtain ⟨hmean, -, -⟩ := hs.fitInt_of_one_key h.count_pos hall
  rw [fitInt_eq_of_le hle] at hmean
  rw [← Except.ok.inj hmean, units?_ofInt_of_le hle] at hv
  rw [hm, Number.unitsOrZero_int, ← Option.some.inj hv]
  exact squareUnits_self hle

theorem Exact.spreadUnits_of_far (h : Exact buckets) (hn : total buckets = n) (hpos : 0 < n)
    {b : Bucket} (hb : b ∈ buckets) {m : Int} (hm : b.1 = .int m)
    (hfar : halfUnits ≤ (m * unitsPerOne - v).natAbs) : 0 < spreadUnits buckets v n := by
  have hle : n ≤ 2 ^ significantBits := Int.ofNat_le.mp (hn ▸ h.total_le)
  have hquarter : n ≤ quarterUnits :=
    Nat.le_trans hle (Nat.pow_le_pow_right (by decide) (by decide))
  obtain ⟨m', hm', hmle⟩ := h.key b hb
  obtain rfl := Number.int.inj (hm.symm.trans hm')
  refine spreadUnits_pos hb hpos hle ?_
  rw [hm, Number.unitsOrZero_int]
  exact Nat.le_trans hquarter (le_squareUnits hmle hfar)

/-- Whatever the mean is, two keys are a spread. -/
theorem Exact.spreadUnits_of_two_keys (h : Exact buckets) (hn : total buckets = n) (hpos : 0 < n)
    {b c : Bucket} (hb : b ∈ buckets) (hc : c ∈ buckets) (hbc : b.1 ≠ c.1) (v : Int) :
    0 < spreadUnits buckets v n := by
  obtain ⟨m, hm, -⟩ := h.key b hb
  obtain ⟨m', hm', -⟩ := h.key c hc
  have hne : m ≠ m' := by
    rintro rfl
    exact hbc (hm.trans hm'.symm)
  rcases exists_far hne v with hfar | hfar
  · exact h.spreadUnits_of_far hn hpos hb hm hfar
  · exact h.spreadUnits_of_far hn hpos hc hm' hfar

theorem Exact.stddev_same_zero_iff (h : Exact buckets) (hs : Assembled buckets ps s) :
    (Number.float s.stddev).same (.int 0) = true ↔
      total buckets ≤ 2 ∨ ∀ b ∈ buckets, ∀ c ∈ buckets, b.1 = c.1 := by
  obtain ⟨n, hn, hpos⟩ := hs.exists_total
  by_cases hmany : 2 < n
  · obtain ⟨v, hv, hvle⟩ := h.within.exists_mean_units hs
    rw [same_zero_iff (h.within.units?_stddev hs hv hvle hn hmany)]
    constructor
    · intro hzero
      refine Or.inr fun b hb c hc => ?_
      by_cases hbc : b.1 = c.1
      · exact hbc
      · have hspread := h.spreadUnits_of_two_keys hn hpos hb hc hbc v
        omega
    · rintro (hfew | hone)
      · omega
      · rw [h.spreadUnits_of_one_key hs hv hpos hone]
        rfl
  · obtain ⟨squares, -, hspread⟩ := hs.spread
    rw [hn, spreadOf, if_neg (by omega)] at hspread
    rw [← Except.ok.inj hspread]
    have hzero : (Number.float (.zero false)).same (.int 0) = true := by decide +kernel
    exact ⟨fun _ => Or.inl (by omega), fun _ => hzero⟩

/-- **Zero spread means no spread.** A summary of whole keys up to 2^53 and up to
as many samples has a spread of zero exactly if there are at most two samples or
all keys are the same; and then this key is the mean, the greatest value and every
percentile. -/
theorem stddev_zero_iff {h : Histogram}
    (hkey : ∀ b ∈ retained .nothing h.visits, ∃ n : Int, b.1 = .int n ∧ n.natAbs ≤ 2 ^ 53)
    (hsome : 1 ≤ total (retained .nothing h.visits))
    (htotal : total (retained .nothing h.visits) ≤ (2 ^ 53 : Nat)) {ps : List Number}
    {result : Option Summary} (houtcome : (ofLatencies h ps).outcome = .ok result) :
    ∃ s, result = some s
      ∧ ((Number.float s.stddev).same (.int 0) = true ↔
        total (retained .nothing h.visits) ≤ 2
          ∨ ∀ b ∈ retained .nothing h.visits, ∀ c ∈ retained .nothing h.visits, b.1 = c.1)
      ∧ ∀ n : Int, (∀ b ∈ retained .nothing h.visits, b.1 = .int n) →
        fitInt n = .ok s.mean ∧ fitInt n = .ok s.max ∧ ∀ e ∈ s.percentiles, e.2 = .int n := by
  have hpos : ∀ b ∈ retained .nothing h.visits, 0 < b.2 :=
    fun _ hb => count_pos_of_mem_retained hb
  have hexact : Exact (retained .nothing h.visits) := ⟨hkey, hpos, htotal⟩
  obtain ⟨s, rfl, hs⟩ := exists_assembled houtcome hsome
  exact ⟨s, rfl, hexact.stddev_same_zero_iff hs, fun n => hs.fitInt_of_one_key hpos⟩

/-- Three samples of seven in two buckets, beside an empty bucket. -/
theorem stddev_zero_iff_seven : ∃ s,
    (ofLatencies (.listed [(.int 7, 2), (.int 8, 0), (.int 7, 1)]) [.float .half]).outcome
        = .ok (some s)
      ∧ (Number.float s.stddev).same (.int 0) = true
      ∧ fitInt 7 = .ok s.mean ∧ fitInt 7 = .ok s.max := by
  have hretained : retained .nothing
      (Histogram.visits (.listed [(.int 7, 2), (.int 8, 0), (.int 7, 1)]))
        = [(.int 7, 2), (.int 7, 1)] := by decide +kernel
  have hone : ∀ b ∈ ([(.int 7, 2), (.int 7, 1)] : List Bucket), b.1 = .int 7 := by decide
  have hkey : ∀ b ∈ ([(.int 7, 2), (.int 7, 1)] : List Bucket),
      ∃ n : Int, b.1 = .int n ∧ n.natAbs ≤ 2 ^ 53 :=
    fun b hb => ⟨7, hone b hb, by decide⟩
  have hexact : Exact [(.int 7, 2), (.int 7, 1)] := ⟨hkey, by decide, by decide⟩
  have hps : ∀ p ∈ [Number.float .half], p.isWritable = true := by decide
  obtain ⟨result, hresult⟩ := hexact.within.exists_result hps
  have houtcome : (ofLatencies (.listed [(.int 7, 2), (.int 8, 0), (.int 7, 1)])
      [.float .half]).outcome = .ok result := by
    refine compute_eq_ok_iff.mpr ⟨fun _ _ => ⟨_, rfl⟩, ?_, by rw [hretained, hresult]⟩
    rw [excluded_eq_zero fun _ _ => rfl]
    rfl
  rw [← hretained] at hkey hone
  obtain ⟨s, rfl, hzero, hmean⟩ := stddev_zero_iff hkey (by rw [hretained]; decide)
    (by rw [hretained]; decide) houtcome
  obtain ⟨hmean, hmax, -⟩ := hmean 7 hone
  refine ⟨s, houtcome, hzero.mpr (Or.inr fun b hb c hc => ?_), hmean, hmax⟩
  rw [hone b hb, hone c hc]

end Summary
end LoadReport
