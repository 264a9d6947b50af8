import Mathlib.Algebra.BigOperators.Ring.List
import Mathlib.Algebra.Ring.Int.Defs
import Mathlib.Algebra.Ring.Nat
import LoadReport.Proofs.Summary.PercentileRule
import LoadReport.Proofs.Summary.Throughput

/-!
# Whole keys and their binary64 forms

Whole keys are summarized in exact arithmetic and binary64 keys with rounded
products and sums. As long as everything is small enough to be exact in
binary64 as well, replacing each whole key by its binary64 form changes
nothing but the form of the keys in the percentiles.

- **Mean.** The products and their sum are exact, so both ways divide the same
  number by the same number (`overCount_eq_quotient`). It is not enough that
  the keys convert exactly: the bound is on the sum of the products.
- **Spread and greatest value.** Both convert a key before they use it, and
  converting is what was done to the keys (`toBinary64_converted`).
- **Percentiles.** A converted key stands where the whole key stands, so the
  arrangement, the walk to a rank and the entering of answers all commute with
  the conversion of keys. What cannot be told of the requests ends both ways alike
  (`tooManyDigits_of_both`).
-/

namespace LoadReport

open Bucket Binary64

/-! ## Converted keys -/

/-- The binary64 form of a whole number; other numbers stay. -/
def Number.converted : Number → Number
  | int n => float (ofInt n)
  | float x => float x

def Bucket.converted (b : Bucket) : Bucket := (b.1.converted, b.2)

namespace Summary

/-- Whole keys that binary64 can count with: their products with the counts
add up to at most 2^53 in magnitude, and so do the counts. -/
structure Countable (buckets : List Bucket) : Prop where
  whole : ∀ b ∈ buckets, ∃ n, b.1 = .int n
  count_pos : ∀ b ∈ buckets, 0 < b.2
  total_le : total buckets ≤ (2 ^ significantBits : Nat)
  amount_le : (buckets.map fun b => (wholeProduct b).natAbs).sum ≤ 2 ^ significantBits

variable {buckets : List Bucket} {ps : List Number} {s : Summary} {n : Nat}

theorem Countable.perm {xs ys : List Bucket} (h : Countable xs) (hperm : xs.Perm ys) :
    Countable ys where
  whole b hb := h.whole b (hperm.symm.subset hb)
  count_pos b hb := h.count_pos b (hperm.symm.subset hb)
  total_le := by
    rw [← total_perm hperm]
    exact h.total_le
  amount_le := by
    rw [← (hperm.map _).sum_eq]
    exact h.amount_le

theorem Countable.natAbs_wholeProduct_le (h : Countable buckets) {b : Bucket}
    (hb : b ∈ buckets) : (wholeProduct b).natAbs ≤ 2 ^ significantBits := by
  have hmem : (wholeProduct b).natAbs ∈ buckets.map fun b => (wholeProduct b).natAbs :=
    List.mem_map_of_mem hb
  exact Nat.le_trans (List.single_le_sum (fun _ _ => Nat.zero_le _) _ hmem) h.amount_le

theorem Countable.exists_key (h : Countable buckets) {b : Bucket} (hb : b ∈ buckets) :
    ∃ n : Int, b.1 = .int n ∧ n.natAbs ≤ 2 ^ significantBits := by
  obtain ⟨n, hn⟩ := h.whole b hb
  have hproduct := h.natAbs_wholeProduct_le hb
  have hcount := h.count_pos b hb
  obtain ⟨key, count⟩ := b
  obtain rfl : key = .int n := hn
  refine ⟨n, rfl, Nat.le_trans ?_ hproduct⟩
  rw [wholeProduct, Int.natAbs_mul]
  exact Nat.le_mul_of_pos_right _ (Int.natAbs_pos.mpr (by omega))

theorem Countable.within (h : Countable buckets) : Within keyExponent buckets where
  key := (KeysWithin.of_ints fun _ hb => h.exists_key hb).mono (by decide)
  count_pos := h.count_pos
  total_le := h.total_le

theorem total_converted (buckets : List Bucket) :
    total (buckets.map Bucket.converted) = total buckets := by
  unfold total
  rw [List.map_map]
  rfl

theorem isInt_converted (key : Number) : key.converted.isInt = false := by
  cases key <;> rfl

theorem toBinary64_converted {key : Int} (h : key.natAbs ≤ 2 ^ significantBits) :
    (Number.int key).converted.toBinary64 = (Number.int key).toBinary64 :=
  (fitInt_eq_of_le h).symm

theorem position?_converted {key : Int} (h : key.natAbs ≤ 2 ^ significantBits) :
    (Number.int key).converted.position? = (Number.int key).position? :=
  position?_of_units? (units?_ofInt_of_le h)

/-! ## The mean -/

theorem sumBy_map {α β : Type} (f : α → β) (summand : β → Except Fault Binary64)
    (items : List α) :
    ExactSum.sumBy summand (items.map f) = ExactSum.sumBy (fun a => summand (f a)) items := by
  unfold ExactSum.sumBy
  rw [List.foldlM_map]

theorem Countable.times_converted (h : Countable buckets) {b : Bucket} (hb : b ∈ buckets) :
    ∃ x, b.converted.1.times b.converted.2 = .ok x
      ∧ x.units? = some (wholeProduct b * unitsPerOne) := by
  obtain ⟨m, hm, hbits⟩ := h.exists_key hb
  have hproduct := hasMantissa_mul_unitsPerOne (h.natAbs_wholeProduct_le hb)
  have hlt := (representable_of_units? (units?_ofInt_of_le (h.natAbs_wholeProduct_le hb))).1
  have htotal := count_le_total (fun c hc => Int.le_of_lt (h.count_pos c hc)) hb
  obtain ⟨c, hc⟩ := Int.eq_ofNat_of_zero_le (Int.le_of_lt (h.count_pos b hb))
  have hcle : c ≤ 2 ^ significantBits := Int.ofNat_le.mp (hc ▸ Int.le_trans htotal h.total_le)
  obtain ⟨key, count⟩ := b
  obtain rfl : key = .int m := hm
  obtain rfl : count = c := hc
  have hexact : m * unitsPerOne * c = wholeProduct (.int m, (c : Int)) * unitsPerOne :=
    Int.mul_right_comm ..
  have hself := roundRatio_one_of_hasMantissa hproduct
  rw [← hexact] at hself hlt ⊢
  have hplace : (Number.int m).converted.position? = some (.units (m * unitsPerOne)) :=
    position?_converted hbits
  obtain ⟨x, hx, hunits⟩ := Number.exists_times hplace hcle (by rwa [hself])
  exact ⟨x, hx, hself ▸ hunits⟩

/-- **The mean does not depend on the kind of the keys.** -/
theorem Countable.meanOf_converted (h : Countable buckets) (hn : total buckets = n)
    (hpos : 0 < n) : meanOf (buckets.map Bucket.converted) n = meanOf buckets n := by
  have hle : n ≤ 2 ^ significantBits := Int.ofNat_le.mp (hn ▸ h.total_le)
  have hints : (buckets.all fun b => b.1.isInt) = true := by
    refine List.all_eq_true.mpr fun b hb => ?_
    obtain ⟨m, hm⟩ := h.whole b hb
    rw [hm]
    rfl
  have hfloat : ∀ c ∈ buckets.map Bucket.converted, c.1.isInt = false := by
    intro c hc
    obtain ⟨b, -, rfl⟩ := List.mem_map.mp hc
    exact isInt_converted b.1
  have hnotInts := not_all_isInt hfloat (by rw [total_converted]; omega)
  have hbound : (buckets.map fun b => (wholeProduct b * (unitsPerOne : Int)).natAbs).sum
      ≤ 2 ^ (significantBits + unitExponent) := by
    have hsum := Nat.mul_le_mul_right unitsPerOne h.amount_le
    rw [← List.sum_map_mul_right, unitsPerOne_eq, ← Nat.pow_add] at hsum
    simpa only [Int.natAbs_mul, Int.natAbs_natCast, unitsPerOne_eq] using hsum
  have hsumBy := ExactSum.sumBy_of_units (by decide) (fun b hb => h.times_converted hb) hbound
  rw [List.sum_map_mul_right, ofSignedUnits_mul_unitsPerOne] at hsumBy
  unfold meanOf
  rw [if_neg hnotInts, if_pos hints, sumBy_map, hsumBy, Except.ok_bind]
  exact overCount_eq_quotient (Nat.le_trans (List.natAbs_sum_le _ _) h.amount_le) hpos hle

/-! ## Spread and greatest value -/

theorem Countable.toBinary64_converted (h : Countable buckets) {b : Bucket} (hb : b ∈ buckets) :
    b.converted.1.toBinary64 = b.1.toBinary64 := by
  obtain ⟨m, hm, hbits⟩ := h.exists_key hb
  rw [Bucket.converted, hm]
  exact Summary.toBinary64_converted hbits

theorem Countable.mapM_converted (h : Countable buckets) {mean : Binary64}
    {squares : List Binary64}
    (hsquares : buckets.mapM (fun b => squaredDeviation mean b.1) = .ok squares) :
    (buckets.map Bucket.converted).mapM (fun b => squaredDeviation mean b.1) = .ok squares := by
  rw [Except.mapM_eq_ok_iff] at hsquares ⊢
  rw [← hsquares, List.map_map]
  refine List.map_congr_left fun b hb => ?_
  show squaredDeviation mean b.converted.1 = squaredDeviation mean b.1
  unfold squaredDeviation Number.minus
  rw [h.toBinary64_converted hb]

theorem Countable.greatest_converted (h : Countable buckets) (hne : buckets ≠ []) :
    greatest (buckets.map Bucket.converted) = greatest buckets := by
  obtain ⟨front, b, rfl⟩ := (List.eq_nil_or_concat buckets).resolve_left hne
  rw [List.concat_eq_append] at *
  rw [List.map_append, List.map_singleton, greatest, greatest, List.getLastD_concat,
    List.getLastD_concat]
  exact h.toBinary64_converted (List.mem_append_right _ (List.mem_singleton_self b))

/-! ## Percentiles -/

theorem Countable.position?_converted (h : Countable buckets) {b : Bucket} (hb : b ∈ buckets) :
    b.converted.1.position? = b.1.position? := by
  obtain ⟨m, hm, hbits⟩ := h.exists_key hb
  rw [Bucket.converted, hm]
  exact Summary.position?_converted hbits

theorem Countable.isNan_eq_false (h : Countable buckets) {b : Bucket} (hb : b ∈ buckets) :
    b.1.isNan = false := by
  obtain ⟨m, hm⟩ := h.whole b hb
  rw [hm]
  rfl

theorem Countable.arrange_converted (h : Countable buckets) :
    Arrangement.arrange (buckets.map Bucket.converted)
      = (Arrangement.arrange buckets).map Bucket.converted := by
  have hnan : ∀ b ∈ buckets.map Bucket.converted, b.1.isNan = false := by
    intro c hc
    obtain ⟨b, hb, rfl⟩ := List.mem_map.mp hc
    obtain ⟨q, hq⟩ := Number.exists_position? (h.isNan_eq_false hb)
    exact Number.isNan_of_position? ((h.position?_converted hb).trans hq)
  rw [Arrangement.arrange_of_no_nan fun b hb => h.isNan_eq_false hb,
    Arrangement.arrange_of_no_nan hnan]
  unfold visitOrder
  refine (List.map_mergeSort fun a ha b hb => ?_).symm
  unfold Number.sortsBefore
  rw [h.position?_converted ha, h.position?_converted hb]

end Summary

namespace Percentile

theorem keyAtRank_converted (rank reached : Int) (buckets : List Bucket) :
    keyAtRank rank reached (buckets.map Bucket.converted)
      = (keyAtRank rank reached buckets).map Number.converted := by
  induction buckets generalizing reached with
  | nil => rfl
  | cons b buckets ih =>
      obtain ⟨key, count⟩ := b
      rw [List.map_cons]
      show (if rank ≤ reached + count then some key.converted
          else keyAtRank rank (reached + count) (buckets.map Bucket.converted)) = _
      rw [keyAtRank, ih]
      split <;> rfl

theorem keyOf_converted (ascending : List Bucket) (total : Int) (p : Number) :
    keyOf (ascending.map Bucket.converted) total p
      = (keyOf ascending total p).map Number.converted := by
  unfold keyOf
  split
  · split
    · exact keyAtRank_converted ..
    · rfl
  · rfl

def convertEntry (e : Number × Number) : Number × Number := (e.1, e.2.converted)

theorem enter_converted (value : Number → Option Number) (t : Table Number Number) (p : Number) :
    enter (fun q => (value q).map Number.converted) (t.map convertEntry) p
      = (enter value t p).map convertEntry := by
  have hcontains : Table.contains Number.same p (t.map convertEntry)
      = Table.contains Number.same p t := List.any_map ..
  unfold enter
  rw [hcontains]
  split
  · rfl
  · cases hkey : value p with
    | none => simp only [hkey, Option.map_none]
    | some key =>
        simp only [hkey, Option.map_some, List.map_append, List.map_singleton]
        rfl

theorem foldl_enter_converted (value : Number → Option Number) (ps : List Number)
    (t : Table Number Number) :
    ps.foldl (enter fun q => (value q).map Number.converted) (t.map convertEntry)
      = (ps.foldl (enter value) t).map convertEntry := by
  induction ps generalizing t with
  | nil => rfl
  | cons p ps ih => rw [List.foldl_cons, List.foldl_cons, enter_converted, ih]

end Percentile

namespace Summary

open Percentile

/-! ## The summary -/

def converted (s : Summary) : Summary := { s with percentiles := s.percentiles.map convertEntry }

/-- **Converting the keys converts the summary.** -/
theorem Countable.assembled_converted (h : Countable buckets) (hs : Assembled buckets ps s) :
    Assembled (buckets.map Bucket.converted) ps s.converted := by
  have hperm := Arrangement.arrange_perm buckets
  have harranged := h.perm hperm.symm
  have hpopulated := hs.populated
  obtain ⟨n, hn, hpos⟩ := hs.exists_total
  have hn' : total (Arrangement.arrange buckets) = n := (total_perm hperm).trans hn
  have hmean : meanOf ((Arrangement.arrange buckets).map Bucket.converted) n
      = meanOf (Arrangement.arrange buckets) n := harranged.meanOf_converted hn' hpos
  have hgreatest : greatest ((Arrangement.arrange buckets).map Bucket.converted)
      = greatest (Arrangement.arrange buckets) := harranged.greatest_converted hs.arrange_ne_nil
  obtain ⟨squares, hsquares, hspread⟩ := hs.spread
  refine ⟨?_, ?_, ?_, ⟨squares, h.mapM_converted hsquares, ?_⟩, ?_⟩
  · rw [total_converted]
    exact hpopulated
  · rw [total_converted, h.arrange_converted]
    obtain ⟨m, hfit⟩ := hs.exists_fitInt
    obtain ⟨t, ht⟩ := exists_resolve ((Arrangement.arrange buckets).map Bucket.converted) hfit
      (Int.le_of_lt hpopulated) hs.isWritable []
    have hvalue : keyOf ((Arrangement.arrange buckets).map Bucket.converted) (total buckets)
        = fun q => (keyOf (Arrangement.arrange buckets) (total buckets) q).map
          Number.converted := funext fun q => keyOf_converted ..
    have hfold := foldl_enter_converted (keyOf (Arrangement.arrange buckets) (total buckets)) ps []
    rw [ht, resolved_eq_foldl ht, hvalue]
    show _ = Except.ok (s.percentiles.map convertEntry)
    rw [resolved_eq_foldl hs.resolved, ← hfold]
    rfl
  · rw [total_converted, h.arrange_converted, hn, hmean, ← hn]
    exact hs.mean
  · rw [total_converted]
    exact hspread
  · rw [h.arrange_converted, hgreatest]
    exact hs.greatest

theorem Countable.ofRetained_converted (h : Countable buckets)
    (hps : ∀ p ∈ ps, p.isWritable = true) :
    (ofRetained buckets ps = .ok none
        ∧ ofRetained (buckets.map Bucket.converted) ps = .ok none)
      ∨ ∃ s, Assembled buckets ps s ∧ ofRetained buckets ps = .ok (some s)
        ∧ ofRetained (buckets.map Bucket.converted) ps = .ok (some s.converted) := by
  obtain ⟨result, hresult⟩ := h.within.exists_result hps
  cases result with
  | none =>
      have hempty := ofRetained_eq_ok_none_iff.mp hresult
      rw [← total_converted] at hempty
      exact Or.inl ⟨hresult, ofRetained_eq_ok_none_iff.mpr hempty⟩
  | some s =>
      have hs := ofRetained_eq_ok_some_iff.mp hresult
      exact Or.inr ⟨s, hs, hresult, ofRetained_eq_ok_some_iff.mpr (h.assembled_converted hs)⟩

theorem Countable.forall₂_percentiles (h : Countable buckets) (hs : Assembled buckets ps s) :
    List.Forall₂ (fun e f => e.1 = f.1 ∧ e.2.same f.2 = true) s.percentiles
      s.converted.percentiles := by
  have hrule := hs.followsRule (fun b hb => h.isNan_eq_false hb) h.count_pos
  have hentry : ∀ e ∈ s.percentiles, e.2.same e.2.converted = true := by
    intro e he
    obtain ⟨-, count, hheld⟩ := hrule.requested e he
    obtain ⟨q, hq⟩ := Number.exists_position? (h.isNan_eq_false hheld)
    exact Number.same_iff.mpr ⟨q, hq, (h.position?_converted hheld).trans hq⟩
  refine List.forall₂_map_right_iff.mpr (List.forall₂_same.mpr fun e he => ⟨rfl, hentry e he⟩)

theorem Countable.tooManyDigits (h : Countable buckets) (hne : buckets ≠ []) {p : Number}
    (hp : p ∈ ps) (hlong : p.isWritable = false) :
    ofRetained buckets ps = .error .tooManyDigits
      ∧ ofRetained (buckets.map Bucket.converted) ps = .error .tooManyDigits := by
  have hle := h.total_le
  have hlength := length_le_total h.count_pos
  have hpos := List.length_pos_iff.mpr hne
  have hpopulated : 1 ≤ total buckets := by omega
  obtain ⟨m, hm, -⟩ := fitInt_of_le (n := total buckets) (by omega)
  refine ⟨ofRetained_of_not_writable hpopulated hm hp hlong, ?_⟩
  rw [← total_converted] at hpopulated hm
  exact ofRetained_of_not_writable hpopulated hm hp hlong

theorem countable_of_pairs {pairs : List (Int × Int)} (hpos : ∀ e ∈ pairs, 0 < e.2)
    (hamount : (pairs.map fun e => e.1.natAbs * e.2.natAbs).sum ≤ 2 ^ 53)
    (htotal : (pairs.map fun e => e.2).sum ≤ 2 ^ 53) :
    Countable (pairs.map fun e => (.int e.1, e.2)) where
  whole b hb := by
    obtain ⟨e, -, rfl⟩ := List.mem_map.mp hb
    exact ⟨e.1, rfl⟩
  count_pos b hb := by
    obtain ⟨e, he, rfl⟩ := List.mem_map.mp hb
    exact hpos e he
  total_le := by
    rw [total, List.map_map]
    exact Int.le_trans htotal (by decide)
  amount_le := by
    have hproducts : (pairs.map fun e => (wholeProduct (.int e.1, e.2)).natAbs)
        = pairs.map fun e => e.1.natAbs * e.2.natAbs :=
      List.map_congr_left fun e _ => Int.natAbs_mul e.1 e.2
    rw [List.map_map]
    exact hproducts ▸ hamount

/-- Of the binary64 forms none is excluded. -/
theorem Countable.outcome_ofThroughput (h : Countable buckets) {g : Histogram}
    (hg : g.visits = buckets.map Bucket.converted) (ps : List Number) :
    (ofThroughput g ps).outcome = ofRetained (buckets.map Bucket.converted) ps := by
  have hfloat : ∀ c ∈ buckets.map Bucket.converted, c.1.isInt = false := by
    intro c hc
    obtain ⟨b, -, rfl⟩ := List.mem_map.mp hc
    exact isInt_converted b.1
  have hadmits : ∀ c ∈ buckets.map Bucket.converted, admits .nonFinite c.1 = true := by
    intro c hc
    obtain ⟨b, hb, rfl⟩ := List.mem_map.mp hc
    obtain ⟨m, hm, hbits⟩ := h.exists_key hb
    rw [Bucket.converted, hm]
    show (!!(ofInt m).isFinite) = true
    rw [Bool.not_not]
    exact isFinite_of_units? (units?_ofInt_of_le hbits)
  have hpos : ∀ c ∈ buckets.map Bucket.converted, 0 < c.2 := by
    intro c hc
    obtain ⟨b, hb, rfl⟩ := List.mem_map.mp hc
    exact h.count_pos b hb
  rw [ofThroughput, hg]
  exact outcome_of_admits (decided_nonFinite hfloat) hadmits hpos ps

/-- **Latencies and throughput agree on whole keys.** A traversal with whole
keys is summarized as one with their binary64 forms, if both can be counted
exactly. Only a request with more digits than are written leaves them without a
summary, and then both. -/
theorem latencies_eq_throughput {pairs : List (Int × Int)} {h g : Histogram}
    (hh : h.visits = pairs.map fun e => (.int e.1, e.2))
    (hg : g.visits = pairs.map fun e => (.float (.ofInt e.1), e.2))
    (hpos : ∀ e ∈ pairs, 0 < e.2)
    (hamount : (pairs.map fun e => e.1.natAbs * e.2.natAbs).sum ≤ 2 ^ 53)
    (htotal : (pairs.map fun e => e.2).sum ≤ 2 ^ 53) (ps : List Number) :
    (pairs = [] ∨ (∀ p ∈ ps, p.isWritable = true) →
      ((ofLatencies h ps).outcome = .ok none ∧ (ofThroughput g ps).outcome = .ok none)
        ∨ ∃ s t, (ofLatencies h ps).outcome = .ok (some s)
          ∧ (ofThroughput g ps).outcome = .ok (some t)
          ∧ s.mean = t.mean ∧ s.stddev = t.stddev ∧ s.max = t.max
          ∧ List.Forall₂ (fun e f => e.1 = f.1 ∧ e.2.same f.2 = true)
            s.percentiles t.percentiles)
      ∧ (pairs ≠ [] → (∃ p ∈ ps, p.isWritable = false) →
        (ofLatencies h ps).outcome = .error .tooManyDigits
          ∧ (ofThroughput g ps).outcome = .error .tooManyDigits) := by
  have hcountable : Countable h.visits := by
    rw [hh]
    exact countable_of_pairs hpos hamount htotal
  have hconverted : g.visits = h.visits.map Bucket.converted := by
    rw [hg, hh, List.map_map]
    rfl
  have hlatencies : (ofLatencies h ps).outcome = ofRetained h.visits ps :=
    outcome_nothing hcountable.count_pos ps
  have hthroughput := hcountable.outcome_ofThroughput hconverted ps
  rw [hlatencies, hthroughput]
  constructor
  · rintro (rfl | hps)
    · rw [hh]
      exact Or.inl ⟨rfl, rfl⟩
    · rcases hcountable.ofRetained_converted hps with hnone | ⟨s, hs, hlat, hthr⟩
      · exact Or.inl hnone
      · exact Or.inr ⟨s, s.converted, hlat, hthr, rfl, rfl, rfl, hcountable.forall₂_percentiles hs⟩
  · rintro hne ⟨p, hp, hlong⟩
    have hvisits : h.visits ≠ [] := by
      rw [hh]
      exact fun hnil => hne (List.map_eq_nil_iff.mp hnil)
    exact hcountable.tooManyDigits hvisits hp hlong

/-- Seven twice and three once, in both forms. -/
theorem latencies_eq_throughput_two : ∃ s t,
    (ofLatencies (.listed [(.int 7, 2), (.int 3, 1)]) [.float .half]).outcome = .ok (some s)
      ∧ (ofThroughput (.listed [(.float (.ofInt 7), 2), (.float (.ofInt 3), 1)])
        [.float .half]).outcome = .ok (some t)
      ∧ s.mean = t.mean ∧ s.stddev = t.stddev ∧ s.max = t.max
      ∧ List.Forall₂ (fun e f => e.1 = f.1 ∧ e.2.same f.2 = true)
        s.percentiles t.percentiles := by
  have hagree := @latencies_eq_throughput [(7, 2), (3, 1)]
    (.listed [(.int 7, 2), (.int 3, 1)])
    (.listed [(.float (.ofInt 7), 2), (.float (.ofInt 3), 1)]) rfl rfl (by decide) (by decide)
    (by decide) [.float .half]
  rcases hagree.1 (.inr (by decide)) with ⟨hnone, -⟩ | hsome
  · exfalso
    obtain ⟨-, -, hempty⟩ := compute_eq_ok_iff.mp hnone
    rw [ofRetained_eq_ok_none_iff] at hempty
    revert hempty
    decide +kernel
  · exact hsome

/-- One once, in both forms, and a request of one digit more than are written.
It is to be dropped, and without it both have a summary. -/
theorem tooManyDigits_of_both :
    (ofLatencies (.listed [(.int 1, 1)]) [.int (10 ^ 4300)]).outcome = .error .tooManyDigits
      ∧ (ofThroughput (.listed [(.float (.ofInt 1), 1)]) [.int (10 ^ 4300)]).outcome
        = .error .tooManyDigits
      ∧ (∃ s, (ofLatencies (.listed [(.int 1, 1)]) []).outcome = .ok (some s))
      ∧ ∃ s, (ofThroughput (.listed [(.float (.ofInt 1), 1)]) []).outcome = .ok (some s) := by
  have hlatencies (ps : List Number) :
      (ofLatencies (.listed [(.int 1, 1)]) ps).outcome = ofRetained [(.int 1, 1)] ps :=
    outcome_nothing (by decide) ps
  have hthroughput (ps : List Number) :
      (ofThroughput (.listed [(.float (.ofInt 1), 1)]) ps).outcome
        = ofRetained [(.float (.ofInt 1), 1)] ps :=
    outcome_of_admits (decided_nonFinite (by decide)) (by decide +kernel) (by decide) ps
  simp only [hlatencies, hthroughput, ofRetained, Arrangement.arrange_singleton]
  refine ⟨by decide +kernel, by decide +kernel, exists_summary (by decide +kernel),
    exists_summary (by decide +kernel)⟩

end Summary
end LoadReport
