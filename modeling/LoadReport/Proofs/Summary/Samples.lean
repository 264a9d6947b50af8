import LoadReport.Proofs.Summary.PercentileRule
import LoadReport.Proofs.Summary.Place

/-!
# Summaries of samples

The statistics of a recorder are those of the list of samples it was made
from, computed the plain way: sort the list and take the element at the
rank, take the greatest element, divide the sum by the length.

- **From buckets to samples.** The retained buckets represent the retained
  samples (`represents_retained`), so both have the same amounts, and what
  the percentile rule says of buckets is said of samples (`AgreesWith`).
- **Whole samples.** The mean is a quotient of whole numbers that is rounded
  once; `wholeValue` is the weight under which buckets and samples have the
  same sum.
- **Binary64 samples.** Which of them are retained is a matter of value
  (`hasUnits`), so the finite ones can be selected before they are recorded
  as well as afterwards.
-/

namespace LoadReport

open Bucket

/-! ## Buckets of whole keys -/

/-- Buckets of samples, with whole keys. -/
structure Bucket.Whole (buckets : List Bucket) : Prop where
  isInt : ∀ b ∈ buckets, b.1.isInt = true
  pos : ∀ b ∈ buckets, 0 < b.2

theorem Bucket.Whole.exists_int {buckets : List Bucket} (h : Whole buckets) {b : Bucket}
    (hb : b ∈ buckets) : ∃ n : Int, b.1 = .int n := by
  obtain ⟨key, count⟩ := b
  cases key with
  | float x => cases h.isInt _ hb
  | int n => exact ⟨n, rfl⟩

theorem Bucket.Whole.isNan {buckets : List Bucket} (h : Whole buckets) :
    ∀ b ∈ buckets, b.1.isNan = false := by
  intro b hb
  obtain ⟨n, hn⟩ := h.exists_int hb
  rw [hn]
  rfl

/-! ## From buckets to samples -/

namespace Summary

open Percentile

theorem weigh_retained {exclude : Exclusion} {test : Number → Bool} {buckets : List Bucket}
    (weight : Number → Int) (hnonneg : ∀ b ∈ buckets, 0 ≤ b.2)
    (hadmits : ∀ b ∈ buckets, admits exclude b.1 = test b.1) :
    weigh weight (retained exclude buckets)
      = weigh (fun k => indicator test k * weight k) buckets := by
  induction buckets with
  | nil => rfl
  | cons b buckets ih =>
      have hb := hnonneg b (List.mem_cons_self ..)
      have hrest := ih (fun c hc => hnonneg c (List.mem_cons_of_mem _ hc))
        fun c hc => hadmits c (List.mem_cons_of_mem _ hc)
      unfold retained at hrest ⊢
      rw [List.filter_cons, hadmits b (List.mem_cons_self ..), weigh_cons]
      unfold indicator at hrest ⊢
      cases htest : test b.1 with
      | false =>
          simp only [Bool.false_and, Bool.false_eq_true, if_false, Int.zero_mul, Int.zero_add]
          exact hrest
      | true =>
          simp only [Bool.true_and, if_true, Int.one_mul]
          split
          · rw [weigh_cons, hrest]
          · next hzero =>
              have hcount : b.2 = 0 := by
                rw [decide_eq_true_eq] at hzero
                omega
              rw [hcount, Int.mul_zero, Int.zero_add]
              exact hrest

theorem weigh_retained_nothing {buckets : List Bucket} (weight : Number → Int)
    (hnonneg : ∀ b ∈ buckets, 0 ≤ b.2) :
    weigh weight (retained .nothing buckets) = weigh weight buckets := by
  rw [@weigh_retained .nothing (fun _ => true) buckets weight hnonneg fun _ _ => rfl]
  simp [indicator]

theorem sum_indicator_mul (test : Number → Bool) (weight : Number → Int)
    (samples : List Number) : (samples.map fun k => indicator test k * weight k).sum
      = ((samples.filter test).map weight).sum := by
  induction samples with
  | nil => rfl
  | cons x samples ih =>
      rw [List.map_cons, List.sum_cons, ih, List.filter_cons]
      unfold indicator
      split <;> simp

/-- The buckets that are retained of a recorder represent the samples that
are retained. -/
theorem represents_retained {samples : List Number} {exclude : Exclusion} {test : Number → Bool}
    (htest : ByValue (indicator test)) (hadmits : ∀ x ∈ samples, admits exclude x = test x) :
    Represents (retained exclude (Recorder.ofSamples samples).visits) (samples.filter test) := by
  have hrep := Recorder.represents_ofSamples samples
  have hkeys : ∀ b ∈ (Recorder.ofSamples samples).visits, admits exclude b.1 = test b.1 :=
    fun b hb => hadmits b.1 (hrep.key_mem b hb)
  refine ⟨fun weight hweight => ?_, fun b hb => ?_⟩
  · rw [weigh_retained weight (fun b hb => Recorder.count_nonneg_of_mem_visits hb) hkeys,
      hrep.weigh_eq, sum_indicator_mul]
    intro a b hab
    simp only [htest hab, hweight hab]
  · have hmem := (List.mem_filter.mp hb).1
    have hadmitted := (List.mem_filter.mp hb).2
    rw [Bool.and_eq_true, hkeys b hmem] at hadmitted
    exact List.mem_filter.mpr ⟨hrep.key_mem b hmem, hadmitted.1⟩

/-- What a summary says of the percentiles and the maximum of samples. -/
structure AgreesWith (samples : List Number) (ps : List Number) (s : Summary) : Prop where
  max : ∃ x ∈ samples, (∀ y ∈ samples, y.le x = true) ∧ x.toBinary64 = .ok s.max
  percentile : ∀ p ∈ ps, inRange p = true → ∃ r, rank p samples.length = .ok r ∧
    (r ≤ samples.length → ∃ key, Table.get? Number.same p s.percentiles = some key
      ∧ key ∈ samples
      ∧ ∀ sorted : List Number, sorted.Perm samples →
          sorted.Pairwise (fun a b => a.le b = true) →
          ∃ x, atRank? sorted r = some x ∧ key.same x = true)

theorem FollowsRule.agreesWith {buckets : List Bucket} {ps samples : List Number} {s : Summary}
    (h : FollowsRule buckets ps s) (hrep : Represents buckets samples)
    (hnan : ∀ x ∈ samples, x.isNan = false) : AgreesWith samples ps s where
  max := by
    obtain ⟨b, hb, hmax, hx⟩ := h.max
    refine ⟨b.1, hrep.key_mem b hb, fun y hy => ?_, hx⟩
    obtain ⟨c, hc, hsame⟩ := hrep.exists_bucket hy (hnan y hy)
    rw [← Number.le_congr_left hsame]
    exact hmax c hc
  percentile p hp hrange := by
    obtain ⟨r, hr⟩ := h.ranked p hp hrange
    have hentry := h.entry_iff p hp
    have hvalue := h.value p hp
    rw [hrep.total_eq] at hr hentry hvalue
    refine ⟨r, hr, fun hle => ?_⟩
    have hheld := hentry.mpr ⟨hrange, r, hr, hle⟩
    rw [Table.contains_eq_isSome] at hheld
    obtain ⟨key, hkey⟩ := Option.isSome_iff_exists.mp hheld
    obtain ⟨r', hr', hleast⟩ := hvalue key hkey
    obtain rfl : r = r' := Except.ok.inj (hr.symm.trans hr')
    have hmem : key ∈ samples := by
      obtain ⟨count, hcount⟩ := hleast.held
      exact hrep.key_mem _ hcount
    refine ⟨key, hkey, hmem, fun sorted hperm hasc => ?_⟩
    have hlength : 0 < sorted.length := by
      rw [hperm.length_eq]
      exact List.length_pos_of_mem hmem
    have hfits : r ≤ sorted.length := by
      rw [hperm.length_eq]
      exact hle
    obtain ⟨x, hx⟩ := exists_atRank? hlength hfits
    exact ⟨x, hx, same_of_leastReaching hrep hnan hperm hasc hleast hx⟩

/-! ## Whole samples -/

theorem whole_retained {exclude : Exclusion} {visits : List Bucket}
    (hint : ∀ b ∈ retained exclude visits, b.1.isInt = true) : Whole (retained exclude visits) :=
  ⟨hint, fun _ hb => count_pos_of_mem_retained hb⟩

/-- The whole number of ones that a number stands at. -/
def wholeValue (key : Number) : Int :=
  match key.position? with
  | some (.units n) => n / unitsPerOne
  | _ => 0

theorem byValue_wholeValue : ByValue wholeValue := fun h => by
  unfold wholeValue
  rw [Number.position?_eq_of_same h]

theorem wholeValue_int (n : Int) : wholeValue (.int n) = n := by
  have hone := Number.unitsPerOne_pos
  exact Int.mul_ediv_cancel n (by omega)

theorem sum_wholeProduct {buckets : List Bucket} (h : ∀ b ∈ buckets, b.1.isInt = true) :
    (buckets.map wholeProduct).sum = weigh wholeValue buckets := by
  induction buckets with
  | nil => rfl
  | cons b buckets ih =>
      obtain ⟨key, count⟩ := b
      have hkey := h _ (List.mem_cons_self ..)
      rw [List.map_cons, List.sum_cons, ih fun c hc => h c (List.mem_cons_of_mem _ hc), weigh_cons]
      cases key with
      | int n => rw [wholeValue_int]; rfl
      | float x => cases hkey

/-- The mean of whole keys is a quotient of whole numbers. -/
theorem Assembled.quotient_eq {buckets : List Bucket} {ps : List Number} {s : Summary}
    (h : Assembled buckets ps s) (hint : ∀ b ∈ buckets, b.1.isInt = true) :
    Binary64.quotient (weigh wholeValue buckets) (total buckets) = .ok s.mean := by
  have hperm := Arrangement.arrange_perm buckets
  have hint' : ∀ b ∈ Arrangement.arrange buckets, b.1.isInt = true :=
    fun b hb => hint b (hperm.subset hb)
  have hmean := h.mean
  rwa [meanOf, if_pos (List.all_eq_true.mpr hint'), sum_wholeProduct hint', weigh_perm hperm]
    at hmean

/-- The mean of whole samples is their sum over their number, rounded once. -/
theorem Assembled.mean_of_ints {buckets : List Bucket} {ps : List Number} {s : Summary}
    {xs : List Int} (h : Assembled buckets ps s) (hrep : Represents buckets (xs.map .int)) :
    s.mean.NearestTo xs.sum xs.length := by
  have hint : ∀ b ∈ buckets, b.1.isInt = true := by
    intro b hb
    obtain ⟨n, -, hn⟩ := List.mem_map.mp (hrep.key_mem b hb)
    rw [← hn]
    rfl
  have hvalues : (xs.map Number.int).map wholeValue = xs := by
    rw [List.map_map]
    exact List.map_id'' wholeValue_int xs
  have hmean := h.quotient_eq hint
  rw [hrep.weigh_eq _ byValue_wholeValue, hvalues, hrep.total_eq, List.length_map] at hmean
  exact Binary64.nearestTo_of_quotient hmean

/-- What a summary is to say of whole samples. -/
structure OfInts (xs : List Int) (ps : List Number) (s : Summary) : Prop where
  max : ∃ m, xs.max? = some m ∧ Binary64.fitInt m = .ok s.max
  mean : s.mean.NearestTo xs.sum xs.length
  percentile : ∀ p ∈ ps, inRange p = true → ∃ r, rank p xs.length = .ok r ∧
    (r ≤ xs.length → ∃ n, atRank? (xs.mergeSort fun a b => decide (a ≤ b)) r = some n
      ∧ Table.get? Number.same p s.percentiles = some (.int n))

theorem pairwise_le_mergeSort (xs : List Int) :
    ((xs.mergeSort fun a b => decide (a ≤ b)).map Number.int).Pairwise
      fun a b => a.le b = true := by
  have htrans : ∀ a b c : Int, decide (a ≤ b) = true → decide (b ≤ c) = true →
      decide (a ≤ c) = true := by
    simp only [decide_eq_true_eq]
    omega
  have htotal : ∀ a b : Int, (decide (a ≤ b) || decide (b ≤ a)) = true := by
    simp only [Bool.or_eq_true, decide_eq_true_eq]
    omega
  have hsorted := List.pairwise_mergeSort htrans htotal xs
  exact List.pairwise_map.mpr (hsorted.imp fun hab => by rwa [Number.le_int])

theorem AgreesWith.ofInts {xs : List Int} {ps : List Number} {s : Summary}
    (h : AgreesWith (xs.map .int) ps s) (hmean : s.mean.NearestTo xs.sum xs.length) :
    OfInts xs ps s where
  max := by
    obtain ⟨x, hx, hmax, hfit⟩ := h.max
    obtain ⟨m, hm, rfl⟩ := List.mem_map.mp hx
    refine ⟨m, List.max?_eq_some_iff.mpr ⟨hm, fun n hn => ?_⟩, hfit⟩
    have hle := hmax (.int n) (List.mem_map_of_mem hn)
    rw [Number.le_int] at hle
    exact of_decide_eq_true hle
  mean := hmean
  percentile p hp hrange := by
    obtain ⟨r, hr, hvalue⟩ := h.percentile p hp hrange
    rw [List.length_map] at hr hvalue
    refine ⟨r, hr, fun hle => ?_⟩
    obtain ⟨key, hkey, hmem, hplace⟩ := hvalue hle
    obtain ⟨n, hn, rfl⟩ := List.mem_map.mp hmem
    obtain ⟨x, hx, hsame⟩ := hplace _ ((List.mergeSort_perm xs _).map _) (pairwise_le_mergeSort xs)
    unfold atRank? at hx ⊢
    rw [List.getElem?_map] at hx
    obtain ⟨m, hm, rfl⟩ := Option.map_eq_some_iff.mp hx
    obtain rfl := Number.eq_of_same_int hsame
    exact ⟨n, hm, hkey⟩

/-! ## Binary64 samples -/

/-- What a summary is to say of finite binary64 samples. -/
structure OfFloats (xs : List Binary64) (ps : List Number) (s : Summary) : Prop where
  max : s.max ∈ xs ∧ ∀ x ∈ xs, (Number.float x).le (.float s.max) = true
  percentile : ∀ p ∈ ps, inRange p = true → ∃ r, rank p xs.length = .ok r ∧
    (r ≤ xs.length → ∃ x key, atRank? ((xs.map .float).mergeSort Number.sortsBefore) r = some x
      ∧ Table.get? Number.same p s.percentiles = some key ∧ key.same x = true)

theorem AgreesWith.ofFloats {xs : List Binary64} {ps : List Number} {s : Summary}
    (h : AgreesWith (xs.map .float) ps s) (hnan : ∀ x ∈ xs, x.isNan = false) :
    OfFloats xs ps s where
  max := by
    obtain ⟨x, hx, hmax, hconv⟩ := h.max
    obtain ⟨y, hy, rfl⟩ := List.mem_map.mp hx
    obtain rfl : y = s.max := Except.ok.inj hconv
    exact ⟨hy, fun z hz => hmax _ (List.mem_map_of_mem hz)⟩
  percentile p hp hrange := by
    obtain ⟨r, hr, hvalue⟩ := h.percentile p hp hrange
    rw [List.length_map] at hr hvalue
    refine ⟨r, hr, fun hle => ?_⟩
    obtain ⟨key, hkey, -, hplace⟩ := hvalue hle
    have hperm := List.mergeSort_perm (xs.map Number.float) Number.sortsBefore
    have hsorted := List.pairwise_mergeSort Number.sortsBefore_trans Number.sortsBefore_total
      (xs.map Number.float)
    have hasc : ((xs.map Number.float).mergeSort Number.sortsBefore).Pairwise
        fun a b => a.le b = true := by
      refine hsorted.imp_of_mem fun _ hb hab => ?_
      obtain ⟨y, hy, rfl⟩ := List.mem_map.mp (hperm.subset hb)
      exact Number.le_of_sortsBefore (hnan y hy) hab
    obtain ⟨x, hx, hsame⟩ := hplace _ hperm hasc
    exact ⟨x, key, hx, hkey, hsame⟩

def hasUnits (key : Number) : Bool :=
  match key.position? with
  | some (.units _) => true
  | _ => false

theorem byValue_hasUnits : ByValue (indicator hasUnits) := fun h => by
  unfold indicator hasUnits
  rw [Number.position?_eq_of_same h]

theorem hasUnits_float (x : Binary64) : hasUnits (.float x) = x.isFinite := by
  match x with
  | .nan => rfl
  | .infinite true => rfl
  | .infinite false => rfl
  | .finite .. => rfl

theorem filter_hasUnits_float (xs : List Binary64) :
    (xs.map Number.float).filter hasUnits = (xs.filter Binary64.isFinite).map .float := by
  rw [List.filter_map]
  congr 1
  exact List.filter_congr fun x _ => hasUnits_float x

theorem admits_nonFinite_float (x : Binary64) :
    admits .nonFinite (.float x) = hasUnits (.float x) := by
  rw [hasUnits_float]
  exact Bool.not_not x.isFinite

/-! ## Agreement with the samples -/

/-- What is left out of a recorder is at most what was recorded, so that a
list of samples that has a length with few enough digits has its notice. -/
theorem noticeable_of_length_lt {samples : List Number} (exclude : Exclusion)
    (h : samples.length < 10 ^ digitLimit) :
    noticeable (excluded exclude (Recorder.ofSamples samples).visits) = .ok () := by
  have hnonneg : ∀ b ∈ (Recorder.ofSamples samples).visits, 0 ≤ b.2 :=
    fun b hb => Recorder.count_nonneg_of_mem_visits hb
  have hle := countWhere_le_total (fun key => !admits exclude key) hnonneg
  have hge := countWhere_nonneg (fun key => !admits exclude key) hnonneg
  rw [(Recorder.represents_ofSamples samples).total_eq] at hle
  refine noticeable_of_lt (Nat.lt_of_le_of_lt ?_ h)
  unfold excluded
  omega

section Retained

variable {exclude : Exclusion} {visits : List Bucket} {samples ps : List Number}

theorem outcome_none_iff (hdecided : Decided exclude visits)
    (hnotice : noticeable (excluded exclude visits) = .ok ())
    (hrep : Represents (retained exclude visits) samples) :
    (compute visits ps exclude).outcome = .ok none ↔ samples = [] := by
  rw [compute_eq_ok_iff, ofRetained_eq_ok_none_iff, hrep.total_eq, ← List.length_eq_zero_iff]
  constructor
  · rintro ⟨-, -, hlt⟩
    omega
  · intro hzero
    exact ⟨hdecided, hnotice, by omega⟩

theorem agreesWith_of_assembled {s : Summary} (h : Assembled (retained exclude visits) ps s)
    (hrep : Represents (retained exclude visits) samples)
    (hnan : ∀ x ∈ samples, x.isNan = false) : AgreesWith samples ps s :=
  (h.followsRule (fun b hb => hnan b.1 (hrep.key_mem b hb))
    fun _ hb => count_pos_of_mem_retained hb).agreesWith hrep hnan

end Retained

theorem represents_latencies (samples : List Number) :
    Represents (retained .nothing (Recorder.ofSamples samples).visits) samples := by
  have hone : ByValue (indicator fun _ => true) := byValue_const 1
  have hrep := represents_retained hone fun x (_ : x ∈ samples) =>
    (rfl : admits .nothing x = true)
  rwa [List.filter_true] at hrep

theorem represents_throughput (xs : List Binary64) :
    Represents (retained .nonFinite (Recorder.ofSamples (xs.map .float)).visits)
      ((xs.filter Binary64.isFinite).map .float) := by
  rw [← filter_hasUnits_float]
  refine represents_retained byValue_hasUnits fun x hx => ?_
  obtain ⟨y, -, rfl⟩ := List.mem_map.mp hx
  exact admits_nonFinite_float y

theorem latencies_none_iff (xs : List Int) (ps : List Number) :
    (ofLatencies (.live (.ofSamples (xs.map .int))) ps).outcome = .ok none ↔ xs = [] := by
  have hnothing : excluded .nothing (Recorder.ofSamples (xs.map .int)).visits = 0 :=
    countWhere_of_forall_not fun _ _ => rfl
  have hnotice : noticeable (excluded .nothing (Recorder.ofSamples (xs.map .int)).visits)
      = .ok () := by rw [hnothing]; rfl
  exact (outcome_none_iff (fun _ _ => ⟨_, rfl⟩) hnotice (represents_latencies _)).trans
    List.map_eq_nil_iff

theorem throughput_none_iff {xs : List Binary64} (ps : List Number)
    (hlength : xs.length < 10 ^ digitLimit) :
    (ofThroughput (.live (.ofSamples (xs.map .float))) ps).outcome = .ok none ↔
      xs.filter Binary64.isFinite = [] := by
  have hdecided : Decided .nonFinite (Recorder.ofSamples (xs.map .float)).visits := by
    intro b hb
    obtain ⟨x, -, hx⟩ := List.mem_map.mp ((Recorder.represents_ofSamples _).key_mem b hb)
    rw [← hx]
    exact ⟨_, rfl⟩
  have hnotice := noticeable_of_length_lt .nonFinite
    (by rwa [List.length_map] : (xs.map Number.float).length < 10 ^ digitLimit)
  exact (outcome_none_iff hdecided hnotice (represents_throughput xs)).trans List.map_eq_nil_iff

theorem ofInts_of_latencies {xs : List Int} {ps : List Number} {s : Summary}
    (h : (ofLatencies (.live (.ofSamples (xs.map .int))) ps).outcome = .ok (some s)) :
    OfInts xs ps s := by
  obtain ⟨-, -, hs⟩ := compute_eq_ok_iff.mp h
  rw [ofRetained_eq_ok_some_iff] at hs
  have hrep := represents_latencies (xs.map .int)
  refine (agreesWith_of_assembled hs hrep fun x hx => ?_).ofInts (hs.mean_of_ints hrep)
  obtain ⟨n, -, rfl⟩ := List.mem_map.mp hx
  rfl

theorem ofFloats_of_throughput {xs : List Binary64} {ps : List Number} {s : Summary}
    (h : (ofThroughput (.live (.ofSamples (xs.map .float))) ps).outcome = .ok (some s)) :
    OfFloats (xs.filter Binary64.isFinite) ps s := by
  obtain ⟨-, -, hs⟩ := compute_eq_ok_iff.mp h
  rw [ofRetained_eq_ok_some_iff] at hs
  have hnan : ∀ x ∈ xs.filter Binary64.isFinite, x.isNan = false := by
    intro x hx
    have hfin := (List.mem_filter.mp hx).2
    cases x with
    | nan => cases hfin
    | infinite negative => cases hfin
    | finite negative units h => rfl
  refine (agreesWith_of_assembled hs (represents_throughput xs) fun x hx => ?_).ofFloats hnan
  obtain ⟨y, hy, rfl⟩ := List.mem_map.mp hx
  exact hnan y hy

/-- **A summary of recorded samples is that of the samples.** Whole samples
are summarized as latencies, binary64 samples as throughput. -/
theorem summary_ofSamples (xs : List Int) (ys : List Binary64) (ps : List Number) :
    ((ofLatencies (.live (.ofSamples (xs.map .int))) ps).outcome = .ok none ↔ xs = [])
      ∧ (∀ s, (ofLatencies (.live (.ofSamples (xs.map .int))) ps).outcome = .ok (some s) →
        OfInts xs ps s)
      ∧ (ys.length < 10 ^ digitLimit →
        ((ofThroughput (.live (.ofSamples (ys.map .float))) ps).outcome = .ok none ↔
          ys.filter Binary64.isFinite = []))
      ∧ (∀ s, (ofThroughput (.live (.ofSamples (ys.map .float))) ps).outcome = .ok (some s) →
        OfFloats (ys.filter Binary64.isFinite) ps s) :=
  ⟨latencies_none_iff xs ps, fun _ => ofInts_of_latencies, throughput_none_iff ps,
    fun _ => ofFloats_of_throughput⟩

/-- Three samples, two of them equal. -/
theorem summary_ofSamples_three : ∃ s,
    (ofLatencies (.live (.ofSamples ([7, 3, 7].map .int))) [.float .half]).outcome = .ok (some s)
      ∧ OfInts [7, 3, 7] [.float .half] s := by
  have hnan : ∀ b ∈ ([(.int 7, 2), (.int 3, 1)] : List Bucket), b.1.isNan = false := by decide
  have hdistinct : ([(.int 7, 2), (.int 3, 1)] : List Bucket).Pairwise
      fun a b => a.1.same b.1 = false := by decide +kernel
  have hasc : ([(.int 3, 1), (.int 7, 2)] : List Bucket).Pairwise
      fun a b => a.1.le b.1 = true := by decide +kernel
  have harrange : Arrangement.arrange [(.int 7, 2), (.int 3, 1)] = [(.int 3, 1), (.int 7, 2)] :=
    Arrangement.arrange_eq hnan hdistinct hasc (.swap ..)
  have hbuckets : counted (Recorder.ofSamples ([7, 3, 7].map .int)).buckets
      = [(.int 7, 2), (.int 3, 1)] := by decide +kernel
  have hvisits : (Recorder.ofSamples ([7, 3, 7].map .int)).visits
      = [(.int 3, 1), (.int 7, 2)] := by
    rw [← harrange, Arrangement.arrange_of_no_nan hnan, ← hbuckets]
    rfl
  have harrange' : Arrangement.arrange [(.int 3, 1), (.int 7, 2)] = [(.int 3, 1), (.int 7, 2)] :=
    Arrangement.arrange_eq (by decide) (by decide +kernel) hasc (.refl _)
  have hexists : ∃ s, ofRetained [(.int 3, 1), (.int 7, 2)] [.float .half] = .ok (some s) := by
    refine exists_summary ?_
    simp only [ofRetained, harrange']
    decide +kernel
  obtain ⟨s, hs⟩ := hexists
  have hcompute : (ofLatencies (.live (.ofSamples ([7, 3, 7].map .int))) [.float .half]).outcome
      = .ok (some s) := by
    unfold ofLatencies Histogram.visits
    dsimp only
    rw [hvisits]
    exact compute_eq_ok_iff.mpr ⟨fun _ _ => ⟨_, rfl⟩, noticeable_of_lt (by decide +kernel), hs⟩
  exact ⟨s, hcompute, (summary_ofSamples [7, 3, 7] [] [.float .half]).2.1 s hcompute⟩

end Summary
end LoadReport
