import LoadReport.Proofs.Binary64.Nearest
import LoadReport.Proofs.Histogram.Weight
import LoadReport.Summary.Percentile

/-!
# The key at a rank

`keyAtRank` walks over ascending buckets and adds up their counts until the
rank is reached. The rule it stands for mentions neither the walk nor an
order of the buckets: the least key such that the samples at most it are at
least as many as the rank says (`LeastReaching`).

- **Where the walk stops.** The buckets split into those it passed, the one
  it stopped at, and the rest (`exists_split_of_keyAtRank`). The bucket it
  stops at may be the first one whatever the rank is, so nothing is known of
  the rank from below if no bucket was passed.
- **Why the key is the least.** A key that has passed the test and is below
  the result has none of the rest at most it, so all that it counts was
  passed.

The rank itself is computed in binary64, from a fraction of either kind.
Fractions between 0 and 1 that are the same have the same rank
(`rank_congr`): whole ones are 0 and 1, and these multiply without rounding.
-/

namespace LoadReport

open Bucket

namespace Percentile

/-! ## Walking to a rank -/

theorem exists_split_of_keyAtRank {rank reached : Int} {buckets : List Bucket} {key : Number}
    (h : keyAtRank rank reached buckets = some key) :
    ∃ front b back, buckets = front ++ [b] ++ back ∧ b.1 = key
      ∧ rank ≤ reached + total (front ++ [b]) ∧ (front ≠ [] → reached + total front < rank) := by
  induction buckets generalizing reached with
  | nil => cases h
  | cons b rest ih =>
      obtain ⟨k, count⟩ := b
      unfold keyAtRank at h
      split at h
      · next hreached =>
          refine ⟨[], (k, count), rest, rfl, Option.some.inj h, ?_, fun hne => absurd rfl hne⟩
          simpa [total] using hreached
      · next hbeyond =>
          obtain ⟨front, b, back, rfl, hkey, hle, hlt⟩ := ih h
          refine ⟨(k, count) :: front, b, back, rfl, hkey, ?_, fun _ => ?_⟩
          · simp only [total, List.cons_append, List.map_cons, List.sum_cons] at hle ⊢
            omega
          · by_cases hfront : front = []
            · subst hfront
              simp only [total, List.map_cons, List.map_nil, List.sum_cons, List.sum_nil]
              omega
            · have hlt := hlt hfront
              simp only [total, List.map_cons, List.sum_cons] at hlt ⊢
              omega

/-- Some key is at a rank exactly if the samples suffice for it. -/
theorem isSome_keyAtRank {rank reached : Int} {buckets : List Bucket}
    (hpos : ∀ b ∈ buckets, 0 < b.2) (hne : buckets ≠ []) :
    (keyAtRank rank reached buckets).isSome = true ↔ rank ≤ reached + total buckets := by
  induction buckets generalizing reached with
  | nil => exact absurd rfl hne
  | cons b rest ih =>
      obtain ⟨k, count⟩ := b
      have hrest : ∀ b ∈ rest, 0 < b.2 := fun b hb => hpos b (List.mem_cons_of_mem _ hb)
      have hnonneg := total_nonneg fun b hb => Int.le_of_lt (hrest b hb)
      have htotal : total ((k, count) :: rest) = count + total rest := by simp [total]
      rw [htotal]
      unfold keyAtRank
      split
      · exact ⟨fun _ => by omega, fun _ => rfl⟩
      · next hbeyond =>
          by_cases hlast : rest = []
          · subst hlast
            simp only [keyAtRank, total, List.map_nil, List.sum_nil, Option.isSome_none,
              Bool.false_eq_true, false_iff]
            omega
          · rw [ih hrest hlast, Int.add_assoc]

/-- The least key such that the samples at most it reach a rank. -/
structure LeastReaching (buckets : List Bucket) (rank : Int) (key : Number) : Prop where
  held : ∃ count, (key, count) ∈ buckets
  reaches : rank ≤ countWhere (fun k => k.le key) buckets
  least : ∀ b ∈ buckets, rank ≤ countWhere (fun k => k.le b.1) buckets → key.le b.1 = true

theorem LeastReaching.perm {xs ys : List Bucket} {rank : Int} {key : Number}
    (h : LeastReaching xs rank key) (hperm : xs.Perm ys) : LeastReaching ys rank key where
  held := by
    obtain ⟨count, hmem⟩ := h.held
    exact ⟨count, hperm.subset hmem⟩
  reaches := by
    rw [← countWhere_perm hperm]
    exact h.reaches
  least b hb hrank := by
    rw [← countWhere_perm hperm] at hrank
    exact h.least b (hperm.symm.subset hb) hrank

/-- **The walk finds the least key that reaches the rank.** -/
theorem leastReaching_of_keyAtRank {rank : Int} {buckets : List Bucket} {key : Number}
    (hasc : buckets.Pairwise fun a b => a.1.le b.1 = true)
    (hnan : ∀ b ∈ buckets, b.1.isNan = false) (hpos : ∀ b ∈ buckets, 0 < b.2)
    (h : keyAtRank rank 0 buckets = some key) : LeastReaching buckets rank key := by
  obtain ⟨front, b, back, rfl, rfl, hle, hlt⟩ := exists_split_of_keyAtRank h
  obtain ⟨hfront, hback, hacross⟩ := List.pairwise_append.mp hasc
  obtain ⟨-, -, hbelow⟩ := List.pairwise_append.mp hfront
  have hb : b ∈ front ++ [b] := List.mem_append_right _ (List.mem_singleton_self b)
  have hself : b.1.le b.1 = true := Number.le_refl (hnan b (List.mem_append_left _ hb))
  have hstop : ∀ d ∈ [b] ++ back, b.1.le d.1 = true := by
    intro d hd
    rcases List.mem_append.mp hd with hd | hd
    · obtain rfl := List.mem_singleton.mp hd
      exact hself
    · exact hacross b hb d hd
  refine ⟨⟨b.2, List.mem_append_left _ hb⟩, ?_, ?_⟩
  · have hpassed : countWhere (fun k => k.le b.1) (front ++ [b]) = total (front ++ [b]) := by
      refine countWhere_of_forall fun c hc => ?_
      rcases List.mem_append.mp hc with hc | hc
      · exact hbelow c hc b (List.mem_singleton_self b)
      · obtain rfl := List.mem_singleton.mp hc
        exact hself
    have hrest := countWhere_nonneg (fun k => k.le b.1) fun c hc =>
      Int.le_of_lt (hpos c (List.mem_append_right _ hc))
    rw [countWhere_append, hpassed]
    omega
  · intro c hc hrank
    cases hbc : b.1.le c.1 with
    | true => rfl
    | false =>
        exfalso
        have hrest : countWhere (fun k => k.le c.1) ([b] ++ back) = 0 :=
          countWhere_of_forall_not fun d hd => Number.le_eq_false_of_le (hstop d hd) hbc
        have hcfront : c ∈ front := by
          rw [List.append_assoc] at hc
          rcases List.mem_append.mp hc with hc | hc
          · exact hc
          · rw [hstop c hc] at hbc
            cases hbc
        have hpassed : countWhere (fun k => k.le c.1) front ≤ total front :=
          countWhere_le_total _ fun d hd =>
            Int.le_of_lt (hpos d (List.mem_append_left _ (List.mem_append_left _ hd)))
        have hshort := hlt (List.ne_nil_of_mem hcfront)
        rw [List.append_assoc, countWhere_append, hrest] at hrank
        omega

/-! ## The rank of a fraction -/

open Binary64

/-- A half more does not depend on the sign of a zero. -/
theorem add_half {x : Binary64} {u : Int} (h : x.units? = some u) :
    x.add .half = .ofSignedUnits false (u + (2 ^ (unitExponent - 1) : Nat)) := by
  cases x with
  | nan => cases h
  | infinite s => cases h
  | finite s v hv =>
      obtain rfl := Option.some.inj h
      simp only [add, half, Bool.and_false, Bool.false_eq_true, if_false]

/-- Multiplying by a number that stands at zero or one does not round. -/
theorem mul_of_whole {x n : Binary64} {m u : Int} (hm : m = 0 ∨ m = 1)
    (hx : x.position? = some (.units (m * unitsPerOne))) (hn : n.units? = some u) :
    (x.mul n).units? = some (m * u) := by
  have hone := Number.unitsPerOne_pos
  cases n with
  | nan => cases hn
  | infinite t => cases hn
  | finite t v hv =>
      obtain rfl := Option.some.inj hn
      match x with
      | .nan => cases hx
      | .infinite true => cases hx
      | .infinite false => cases hx
      | .finite s w hw =>
          have hsigned : (if s then -(w : Int) else w) = m * unitsPerOne := by
            simpa [position?] using hx
          have hzero := ofUnitQuotient_mul (s != t) hone representable_zero
          have hself := ofUnitQuotient_mul (s != t) hone hv
          simp only [mul]
          rcases hm with rfl | rfl
          · obtain rfl : w = 0 := by split at hsigned <;> omega
            rw [Nat.zero_mul] at hzero ⊢
            rw [hzero]
            simp [units?]
          · obtain rfl : s = false := by
              cases s with
              | false => rfl
              | true => simp only [if_true] at hsigned; omega
            obtain rfl : w = unitsPerOne := by
              simp only [Bool.false_eq_true, if_false] at hsigned
              omega
            rw [Nat.mul_comm, hself]
            simp [units?]

theorem rank_of_whole {p : Number} {total m u : Int} {n : Binary64}
    (hfit : fitInt total = .ok n) (hn : n.units? = some u) (hm : m = 0 ∨ m = 1)
    (hp : p.position? = some (.units (m * unitsPerOne))) :
    rank p total
      = (ofSignedUnits false (m * u + (2 ^ (unitExponent - 1) : Nat))).floor := by
  have htimes : ∃ y, p.times total = .ok y ∧ y.units? = some (m * u) := by
    cases p with
    | float x =>
        refine ⟨x.mul n, ?_, mul_of_whole hm hp hn⟩
        unfold Number.times
        rw [hfit]
        rfl
    | int k =>
        have hone := Number.unitsPerOne_pos
        obtain rfl : k = m := by
          have hk : k * (unitsPerOne : Int) = m * unitsPerOne := by
            simpa [Number.position?] using hp
          exact Int.eq_of_mul_eq_mul_right (by omega) hk
        show ∃ y, fitInt (k * total) = .ok y ∧ y.units? = some (k * u)
        rcases hm with rfl | rfl
        · refine ⟨.zero false, ?_, by simp [zero, units?]⟩
          rw [Int.zero_mul, fitInt_of_isFinite (by decide +kernel)]
          exact congrArg _ (by decide +kernel)
        · rw [Int.one_mul, Int.one_mul]
          exact ⟨n, hfit, hn⟩
  obtain ⟨y, hy, hunits⟩ := htimes
  unfold rank
  rw [hy, ← add_half hunits]
  rfl

/-- Only the zeros stand at the same place and differ. -/
theorem eq_of_position? {x y : Binary64} {q : Position} (hx : x.position? = some q)
    (hy : y.position? = some q) (hq : q ≠ .units 0) : x = y := by
  match x, y with
  | .nan, _ => cases hx
  | _, .nan => cases hy
  | .infinite true, .infinite true => rfl
  | .infinite false, .infinite false => rfl
  | .infinite true, .infinite false => rw [← hx] at hy; cases hy
  | .infinite false, .infinite true => rw [← hx] at hy; cases hy
  | .infinite true, .finite .. => rw [← hx] at hy; cases hy
  | .infinite false, .finite .. => rw [← hx] at hy; cases hy
  | .finite .., .infinite true => rw [← hx] at hy; cases hy
  | .finite .., .infinite false => rw [← hx] at hy; cases hy
  | .finite s v hv, .finite t w hw =>
      simp only [position?, Option.some.injEq] at hx hy
      subst hx
      simp only [Position.units.injEq, ne_eq] at hy hq
      obtain ⟨rfl, rfl⟩ : s = t ∧ v = w := by
        cases s <;> cases t <;>
          simp only [if_true, if_false, Bool.false_eq_true, true_and] at hy hq ⊢ <;> omega
      rfl

theorem eq_zero_or_one_of_inRange {m : Int} (h : inRange (.int m) = true) : m = 0 ∨ m = 1 := by
  simp only [inRange, Number.le_int, Bool.and_eq_true, decide_eq_true_eq] at h
  omega

/-- **The rank is by value.** Fractions between 0 and 1 that are the same
have the same rank, if the total fits. -/
theorem rank_congr {p q : Number} {total : Int} {n : Binary64} (hfit : fitInt total = .ok n)
    (h : p.same q = true) (hp : inRange p = true) : rank p total = rank q total := by
  obtain ⟨place, hplace, hplace'⟩ := Number.same_iff.mp h
  obtain ⟨u, hu⟩ : ∃ u, n.units? = some u := by
    rw [← Option.isSome_iff_exists, units?_isSome]
    exact isFinite_of_fitInt hfit
  have hwhole : ∀ m : Int, m = 0 ∨ m = 1 → place = .units (m * unitsPerOne) →
      rank p total = rank q total := by
    rintro m hm rfl
    rw [rank_of_whole hfit hu hm hplace, rank_of_whole hfit hu hm hplace']
  have hq : inRange q = true := by
    rw [inRange, ← Number.le_congr_left h, ← Number.le_congr_right h]
    exact hp
  cases p with
  | int m => exact hwhole m (eq_zero_or_one_of_inRange hp) (Option.some.inj hplace).symm
  | float x =>
      cases q with
      | int m => exact hwhole m (eq_zero_or_one_of_inRange hq) (Option.some.inj hplace').symm
      | float y =>
          by_cases hzero : place = .units 0
          · exact hwhole 0 (Or.inl rfl) (by rw [hzero, Int.zero_mul])
          · obtain rfl := eq_of_position? hplace hplace' hzero
            rfl

end Percentile
end LoadReport
