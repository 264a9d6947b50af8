import LoadReport.Proofs.Summary.PercentileRule
import LoadReport.Proofs.Summary.RankOrder

/-!
# Which fractions resolve

The percentile rule with what is known of ranks put in.

- **Few samples.** Up to 2^52 of them no rank exceeds their number, so every
  fraction in range has an entry. Zero has rank zero, which every key
  reaches; one has the number of samples as its rank, which only a greatest
  key reaches. The bound is sharp: from there to 2^53 the rank of one among an
  odd number of samples is one too many (`resolved_of_compute`).
- **Any number of samples.** A fraction below a resolved one has a rank at
  most that of the other, so it is resolved too and its key is at most the
  other key (`percentiles_le`).

The greatest value of a summary is given in binary64, so a key is compared
with it after the same conversion. A whole key beyond 2^53 may itself be above
the greatest value (`key_above_max`), which is why the comparison without
conversion is stated for keys that binary64 holds.
-/

namespace LoadReport

open Bucket Percentile

/-! ## Extreme keys -/

structure LeastKey (buckets : List Bucket) (key : Number) : Prop where
  held : ∃ count, (key, count) ∈ buckets
  le : ∀ b ∈ buckets, key.le b.1 = true

structure GreatestKey (buckets : List Bucket) (key : Number) : Prop where
  held : ∃ count, (key, count) ∈ buckets
  ge : ∀ b ∈ buckets, b.1.le key = true

theorem Bucket.forall_of_total_le {test : Number → Bool} {buckets : List Bucket}
    (hpos : ∀ b ∈ buckets, 0 < b.2) (h : total buckets ≤ countWhere test buckets) :
    ∀ b ∈ buckets, test b.1 = true := by
  induction buckets with
  | nil => exact fun b hb => absurd hb List.not_mem_nil
  | cons b rest ih =>
      have hb := hpos b (List.mem_cons_self ..)
      have hrest : ∀ c ∈ rest, 0 < c.2 := fun c hc => hpos c (List.mem_cons_of_mem _ hc)
      have hle := countWhere_le_total test fun c hc => Int.le_of_lt (hrest c hc)
      cases htest : test b.1 with
      | false =>
          exfalso
          simp only [total, countWhere, List.map_cons, List.sum_cons, List.filter_cons, htest,
            Bool.false_eq_true, if_false] at h hle
          omega
      | true =>
          simp only [total, countWhere, List.map_cons, List.sum_cons, List.filter_cons, htest,
            if_true] at h ih
          intro c hc
          rcases List.mem_cons.mp hc with rfl | hc
          · exact htest
          · exact ih hrest (by omega) c hc

namespace Percentile.LeastReaching

variable {buckets : List Bucket} {r r' : Int} {key key' : Number}

/-- Rank zero and below are reached by every key. -/
theorem leastKey (h : LeastReaching buckets r key) (hpos : ∀ b ∈ buckets, 0 < b.2)
    (hr : r ≤ 0) : LeastKey buckets key := by
  refine ⟨h.held, fun b hb => h.least b hb ?_⟩
  exact Int.le_trans hr (countWhere_nonneg _ fun c hc => Int.le_of_lt (hpos c hc))

/-- The number of samples is reached by greatest keys only. -/
theorem greatestKey (h : LeastReaching buckets r key) (hpos : ∀ b ∈ buckets, 0 < b.2)
    (hr : total buckets ≤ r) : GreatestKey buckets key :=
  ⟨h.held, forall_of_total_le hpos (Int.le_trans hr h.reaches)⟩

theorem le (h : LeastReaching buckets r key) (h' : LeastReaching buckets r' key') (hr : r ≤ r') :
    key.le key' = true := by
  obtain ⟨count, hmem⟩ := h'.held
  exact h.least _ hmem (Int.le_trans hr h'.reaches)

end Percentile.LeastReaching

namespace Summary

/-! ## Up to 2^52 samples and beyond -/

section Sharp

variable {buckets : List Bucket} {ps : List Number} {s : Summary} {p : Number} {k : Nat}

theorem FollowsRule.exists_get? (h : FollowsRule buckets ps s) (hk : total buckets = k)
    (hfew : k ≤ 2 ^ (significantBits - 1)) (hp : p ∈ ps) (hrange : inRange p = true) :
    ∃ key, Table.get? Number.same p s.percentiles = some key := by
  obtain ⟨r, hr⟩ := h.ranked p hp hrange
  have hle : r ≤ total buckets := by
    rw [hk] at hr ⊢
    exact rank_le_total hfew hrange hr
  have hheld := (h.entry_iff p hp).mpr ⟨hrange, r, hr, hle⟩
  rw [Table.contains_eq_isSome] at hheld
  exact Option.isSome_iff_exists.mp hheld

theorem FollowsRule.leastKey (h : FollowsRule buckets ps s) (hpos : ∀ b ∈ buckets, 0 < b.2)
    (hk : total buckets = k) (hfew : k ≤ 2 ^ (significantBits - 1)) (hp : p ∈ ps)
    (hzero : p.same (.int 0) = true) {key : Number}
    (hkey : Table.get? Number.same p s.percentiles = some key) : LeastKey buckets key := by
  obtain ⟨r, hr, hleast⟩ := h.value p hp key hkey
  have hbits : (k : Int).natAbs ≤ 2 ^ significantBits := by
    rw [Int.natAbs_natCast]
    exact Nat.le_trans hfew (by decide)
  obtain ⟨n, hfit, -⟩ := Binary64.fitInt_of_le hbits
  rw [hk, rank_of_same_zero hfit hzero] at hr
  obtain rfl := Except.ok.inj hr
  exact hleast.leastKey hpos (Int.le_refl 0)

theorem FollowsRule.greatestKey (h : FollowsRule buckets ps s) (hpos : ∀ b ∈ buckets, 0 < b.2)
    (hk : total buckets = k) (hfew : k ≤ 2 ^ (significantBits - 1)) (hp : p ∈ ps)
    (hone : p.same (.int 1) = true) {key : Number}
    (hkey : Table.get? Number.same p s.percentiles = some key) : GreatestKey buckets key := by
  obtain ⟨r, hr, hleast⟩ := h.value p hp key hkey
  rw [hk, rank_of_same_one (Nat.lt_of_le_of_lt hfew (by decide)) hone] at hr
  obtain rfl := Except.ok.inj hr
  refine hleast.greatestKey hpos ?_
  rw [hk]
  split <;> omega

/-- Between 2^52 and 2^53 an odd number of samples has no key at its last
rank. -/
theorem Assembled.contains_one (h : Assembled buckets ps s) (hpos : ∀ b ∈ buckets, 0 < b.2)
    (hk : total buckets = k) (hodd : k % 2 = 1) (hlow : 2 ^ (significantBits - 1) < k)
    (hhigh : k < 2 ^ significantBits) (hp : p ∈ ps) (hone : p.same (.int 1) = true) :
    rank p (total buckets) = .ok (total buckets + 1)
      ∧ Table.contains Number.same p s.percentiles = false := by
  have hrank : rank p (total buckets) = .ok (total buckets + 1) := by
    rw [hk, rank_of_same_one hhigh hone, if_neg (Nat.not_lt_of_lt hlow), hodd]
    rfl
  refine ⟨hrank, ?_⟩
  rw [Table.contains_eq_isSome, h.get?_percentiles hp]
  cases hkey : keyOf (Arrangement.arrange buckets) (total buckets) p with
  | none => rfl
  | some key =>
      exfalso
      obtain ⟨-, r, hr, hat⟩ := keyOf_eq_some_iff.mp hkey
      obtain rfl := Except.ok.inj (hrank.symm.trans hr)
      have hsuffices := (h.isSome_keyAtRank hpos _).mp (Option.isSome_of_eq_some hat)
      omega

end Sharp

variable {visits : List Bucket} {ps : List Number} {exclude : Exclusion}

/-- **Up to 2^52 samples every fraction in range has an entry**, zero that of
a least key and one that of a greatest; and the bound is sharp. -/
theorem resolved_of_compute {result : Option Summary}
    (h : (compute visits ps exclude).outcome = .ok result) :
    (1 ≤ total (retained exclude visits) →
      total (retained exclude visits) ≤ (2 ^ 52 : Nat) →
      (∀ b ∈ retained exclude visits, b.1.isNan = false) →
      ∃ s, result = some s ∧ ∀ p ∈ ps, (Number.int 0).le p = true → p.le (.int 1) = true →
        ∃ key, Table.get? Number.same p s.percentiles = some key
          ∧ (p.same (.int 0) = true → LeastKey (retained exclude visits) key)
          ∧ (p.same (.int 1) = true → GreatestKey (retained exclude visits) key))
    ∧ (total (retained exclude visits) % 2 = 1 →
      (2 ^ 52 : Nat) < total (retained exclude visits) →
      total (retained exclude visits) < (2 ^ 53 : Nat) →
      ∃ s, result = some s ∧ ∀ p ∈ ps, p.same (.int 1) = true →
        rank p (total (retained exclude visits)) = .ok (total (retained exclude visits) + 1)
          ∧ Table.contains Number.same p s.percentiles = false) := by
  have hpos : ∀ b ∈ retained exclude visits, 0 < b.2 := fun _ hb => count_pos_of_mem_retained hb
  constructor
  · intro hsome hfew hnan
    obtain ⟨s, hs, hassembled⟩ := exists_assembled h hsome
    obtain ⟨k, hk⟩ := Int.eq_ofNat_of_zero_le (Int.le_of_lt hsome)
    have hfew' : k ≤ 2 ^ (significantBits - 1) := Int.ofNat_le.mp (hk ▸ hfew)
    have hrule := hassembled.followsRule hnan hpos
    refine ⟨s, hs, fun p hp hlow hhigh => ?_⟩
    have hrange : inRange p = true := by rw [inRange, hlow, hhigh, Bool.and_self]
    obtain ⟨key, hkey⟩ := hrule.exists_get? hk hfew' hp hrange
    exact ⟨key, hkey, fun hzero => hrule.leastKey hpos hk hfew' hp hzero hkey,
      fun hone => hrule.greatestKey hpos hk hfew' hp hone hkey⟩
  · intro hodd hlow hhigh
    obtain ⟨s, hs, hassembled⟩ := exists_assembled h (by omega)
    obtain ⟨k, hk, -⟩ := hassembled.exists_total
    refine ⟨s, hs, fun p hp hone => hassembled.contains_one hpos hk ?_ ?_ ?_ hp hone⟩
    · omega
    · exact Int.ofNat_lt.mp (hk ▸ hlow)
    · exact Int.ofNat_lt.mp (hk ▸ hhigh)

theorem arrange_seven_three : Arrangement.arrange [(.int 7, 2), (.int 3, 1)]
    = [(.int 3, 1), (.int 7, 2)] :=
  Arrangement.arrange_eq (by decide) (by decide +kernel) (by decide +kernel) (.swap ..)

/-- Seven twice and three once; then one sample more than 2^52. -/
theorem resolved_of_compute_sharp : ∃ s t,
    (compute [(.int 7, 2), (.int 3, 1)] [.int 0, .float .half, .int 1] .nothing).outcome
        = .ok (some s)
      ∧ (∀ p ∈ [Number.int 0, .float .half, .int 1],
        ∃ key, Table.get? Number.same p s.percentiles = some key)
      ∧ (compute [(.int 7, 2 ^ 52 + 1)] [.float (.ofInt 1)] .nothing).outcome = .ok (some t)
      ∧ rank (.float (.ofInt 1)) (2 ^ 52 + 1) = .ok (2 ^ 52 + 2)
      ∧ Table.contains Number.same (.float (.ofInt 1)) t.percentiles = false := by
  have hfew : ∀ b ∈ ([(.int 7, 2), (.int 3, 1)] : List Bucket), 0 < b.2 := by decide
  have hmany : ∀ b ∈ ([(.int 7, 2 ^ 52 + 1)] : List Bucket), 0 < b.2 := by decide
  have hs : ∃ s, ofRetained [(.int 7, 2), (.int 3, 1)] [.int 0, .float .half, .int 1]
      = .ok (some s) := by
    refine exists_summary ?_
    simp only [ofRetained, arrange_seven_three]
    decide +kernel
  have ht : ∃ t, ofRetained [(.int 7, 2 ^ 52 + 1)] [.float (.ofInt 1)] = .ok (some t) := by
    refine exists_summary ?_
    simp only [ofRetained, Arrangement.arrange_singleton]
    decide +kernel
  obtain ⟨s, hs⟩ := hs
  obtain ⟨t, ht⟩ := ht
  rw [← outcome_nothing hfew] at hs
  rw [← outcome_nothing hmany] at ht
  have hresolved := (resolved_of_compute hs).1
  have hunresolved := (resolved_of_compute ht).2
  rw [retained_nothing hfew] at hresolved
  rw [retained_nothing hmany] at hunresolved
  obtain ⟨_, ⟨⟩, hentries⟩ := hresolved (by decide) (by decide) (by decide)
  obtain ⟨_, ⟨⟩, hnone⟩ := hunresolved (by decide) (by decide) (by decide)
  obtain ⟨hrank, hmissing⟩ := hnone _ (List.mem_singleton_self _) (by decide +kernel)
  have hrange : ∀ p ∈ [Number.int 0, .float .half, .int 1],
      (Number.int 0).le p = true ∧ p.le (.int 1) = true := by decide +kernel
  refine ⟨s, t, hs, fun p hp => ?_, ht, hrank, hmissing⟩
  obtain ⟨key, hkey, -⟩ := hentries p hp (hrange p hp).1 (hrange p hp).2
  exact ⟨key, hkey⟩

/-! ## Fractions in order -/

theorem Assembled.exists_toBinary64 {buckets : List Bucket} {s : Summary}
    (h : Assembled buckets ps s) {b : Bucket} (hb : b ∈ buckets) :
    ∃ y, b.1.toBinary64 = .ok y := by
  obtain ⟨deviations, hdeviations, -⟩ := h.spread
  obtain ⟨d, -, hd⟩ := Except.exists_mem_of_mapM hdeviations hb
  obtain ⟨deviation, hminus, -⟩ := Except.bind_eq_ok_iff.mp hd
  unfold Number.minus at hminus
  cases hy : b.1.toBinary64 with
  | ok y => exact ⟨y, rfl⟩
  | error fault => rw [hy] at hminus; cases hminus

theorem Assembled.get?_le {buckets : List Bucket} {s : Summary} (h : Assembled buckets ps s)
    (hrule : FollowsRule buckets ps s) {p q : Number} (hp : p ∈ ps) (hq : q ∈ ps)
    (hlow : (Number.int 0).le p = true) (hpq : p.le q = true) (hhigh : q.le (.int 1) = true)
    {key' : Number} (hkey' : Table.get? Number.same q s.percentiles = some key') :
    ∃ key, Table.get? Number.same p s.percentiles = some key ∧ key.le key' = true := by
  have hprange : inRange p = true := by rw [inRange, hlow, Number.le_trans hpq hhigh, Bool.and_self]
  have hqrange : inRange q = true := by rw [inRange, Number.le_trans hlow hpq, hhigh, Bool.and_self]
  obtain ⟨n, hfit⟩ := h.exists_fitInt
  have htotal : 0 ≤ total buckets := Int.le_of_lt h.populated
  obtain ⟨r, hr⟩ := hrule.ranked p hp hprange
  obtain ⟨r', hr', hreach'⟩ := hrule.value q hq key' hkey'
  have hranks : r ≤ r' := rank_le_rank hfit hfit htotal (Int.le_refl _) hprange hqrange hpq hr hr'
  have hheld' : Table.contains Number.same q s.percentiles = true := by
    rw [Table.contains_eq_isSome, hkey']
    rfl
  obtain ⟨-, t, ht, hle⟩ := (hrule.entry_iff q hq).mp hheld'
  obtain rfl := Except.ok.inj (hr'.symm.trans ht)
  have hheld := (hrule.entry_iff p hp).mpr ⟨hprange, r, hr, Int.le_trans hranks hle⟩
  rw [Table.contains_eq_isSome] at hheld
  obtain ⟨key, hkey⟩ := Option.isSome_iff_exists.mp hheld
  obtain ⟨t, ht, hreach⟩ := hrule.value p hp key hkey
  obtain rfl := Except.ok.inj (hr.symm.trans ht)
  exact ⟨key, hkey, hreach.le hreach' hranks⟩

/-- **Percentiles are monotone.** A fraction up to a resolved one is
resolved, with a key at most the other key. That key is at most a greatest
one, of which the greatest value is the conversion, so it is at most the
greatest value after conversion, and before it if binary64 holds the key. -/
theorem percentiles_le {s : Summary} (hnan : ∀ b ∈ retained exclude visits, b.1.isNan = false)
    (h : (compute visits ps exclude).outcome = .ok (some s)) {p q : Number} (hp : p ∈ ps)
    (hq : q ∈ ps) (hlow : (Number.int 0).le p = true) (hpq : p.le q = true)
    (hhigh : q.le (.int 1) = true) {key' : Number}
    (hkey' : Table.get? Number.same q s.percentiles = some key') :
    (∃ key, Table.get? Number.same p s.percentiles = some key ∧ key.le key' = true)
      ∧ (∃ top, GreatestKey (retained exclude visits) top ∧ key'.le top = true
        ∧ top.toBinary64 = .ok s.max)
      ∧ ∃ y, key'.toBinary64 = .ok y ∧ (Number.float y).le (.float s.max) = true
        ∧ (key'.same (.float y) = true → key'.le (.float s.max) = true) := by
  obtain ⟨-, -, hrest⟩ := compute_eq_ok_iff.mp h
  have hassembled := ofRetained_eq_ok_some_iff.mp hrest
  have hrule := hassembled.followsRule hnan fun _ hb => count_pos_of_mem_retained hb
  obtain ⟨b, hb, hgreatest, hmax⟩ := hrule.max
  obtain ⟨_, -, hreach⟩ := hrule.value q hq key' hkey'
  obtain ⟨count, hmem⟩ := hreach.held
  have htop : key'.le b.1 = true := hgreatest _ hmem
  obtain ⟨y, hy⟩ := hassembled.exists_toBinary64 hmem
  have hconverted : (Number.float y).le (.float s.max) = true := Number.le_toBinary64 htop hy hmax
  refine ⟨hassembled.get?_le hrule hp hq hlow hpq hhigh hkey', ?_, y, hy, hconverted, ?_⟩
  · exact ⟨b.1, ⟨⟨b.2, hb⟩, hgreatest⟩, htop, hmax⟩
  · intro hsame
    rw [Number.le_congr_left hsame]
    exact hconverted

/-- Seven twice and three once. -/
theorem percentiles_le_two : ∃ s key key',
    (compute [(.int 7, 2), (.int 3, 1)] [.int 0, .float .half] .nothing).outcome = .ok (some s)
      ∧ Table.get? Number.same (.int 0) s.percentiles = some key
      ∧ Table.get? Number.same (.float .half) s.percentiles = some key'
      ∧ key.le key' = true := by
  have hpos : ∀ b ∈ ([(.int 7, 2), (.int 3, 1)] : List Bucket), 0 < b.2 := by decide
  have hs : ∃ s, ofRetained [(.int 7, 2), (.int 3, 1)] [.int 0, .float .half] = .ok (some s)
      ∧ Table.contains Number.same (.float .half) s.percentiles = true := by
    refine exists_summary_of ?_
    simp only [ofRetained, arrange_seven_three]
    decide +kernel
  obtain ⟨s, hs, hheld⟩ := hs
  rw [← outcome_nothing hpos] at hs
  rw [Table.contains_eq_isSome] at hheld
  obtain ⟨key', hkey'⟩ := Option.isSome_iff_exists.mp hheld
  obtain ⟨⟨key, hkey, hle⟩, -, -⟩ := percentiles_le (by rw [retained_nothing hpos]; decide) hs
    (List.mem_cons_self ..) (List.mem_cons_of_mem _ (List.mem_singleton_self _))
    (by decide +kernel) (by decide +kernel) (by decide +kernel) hkey'
  exact ⟨s, key, key', hs, hkey, hkey', hle⟩

/-- One sample of 2^53 + 1: the conversion of the greatest key rounds it
down. -/
theorem key_above_max : ∃ s,
    (compute [(.int (2 ^ 53 + 1), 1)] [.float (.ofInt 1)] .nothing).outcome = .ok (some s)
      ∧ Table.get? Number.same (.float (.ofInt 1)) s.percentiles = some (.int (2 ^ 53 + 1))
      ∧ (Number.int (2 ^ 53 + 1)).le (.float s.max) = false := by
  have hs : ∃ s, ofRetained [(.int (2 ^ 53 + 1), 1)] [.float (.ofInt 1)] = .ok (some s)
      ∧ decide (Table.get? Number.same (.float (.ofInt 1)) s.percentiles
          = some (.int (2 ^ 53 + 1))
        ∧ (Number.int (2 ^ 53 + 1)).le (.float s.max) = false) = true := by
    refine exists_summary_of ?_
    simp only [ofRetained, Arrangement.arrange_singleton]
    decide +kernel
  obtain ⟨s, hs, hfacts⟩ := hs
  rw [← outcome_nothing (by decide)] at hs
  exact ⟨s, hs, of_decide_eq_true hfacts⟩

end Summary
end LoadReport
