import LoadReport.Proofs.Histogram.Recording
import LoadReport.Proofs.Summary.PercentileRule
import LoadReport.Proofs.Summary.RankOrder

/-!
# More samples

Adding samples at or above the key of a fraction does not take the fraction to
a lower key. Three things change at once: the number of samples, with it the
rank, and the counts that the rank is looked up in.

- **Counts.** `Grown` says of two lists of buckets that the second has more
  samples and that nothing is different below a key. It asks for that by value
  and not bucket by bucket, since further samples may open a bucket, join one
  that is there under another form of its key, or fill one that was empty.
- **Ranks** are in the order of the totals (`rank_le_rank`), those included
  that are rounded.
- **Keys.** A lower key would have nothing but old samples at most it, and
  these reach the old rank by then, so the old key was not the least
  (`LeastReaching.le_of_grown`).

An exclusion need not be by value, so it cannot be asked whether a key is
excluded, only whether the bucket is that shows it. What is added under the
key of an excluded bucket is lost, and `Grown` holds all the same
(`grown_retained_update`).
-/

namespace LoadReport

open Bucket

/-! ## Nothing new below a key -/

namespace Bucket

structure Grown (key : Number) (xs ys : List Bucket) : Prop where
  total_le : total xs ≤ total ys
  countWhere_eq : ∀ test, ByValue (indicator test) → (∀ k, key.le k = true → test k = false) →
    countWhere test ys = countWhere test xs

variable {key : Number} {xs ys zs : List Bucket}

theorem Grown.refl (key : Number) (xs : List Bucket) : Grown key xs xs :=
  ⟨Int.le_refl _, fun _ _ _ => rfl⟩

theorem Grown.trans (h : Grown key xs ys) (h' : Grown key ys zs) : Grown key xs zs where
  total_le := Int.le_trans h.total_le h'.total_le
  countWhere_eq test htest hbelow :=
    (h'.countWhere_eq test htest hbelow).trans (h.countWhere_eq test htest hbelow)

theorem Grown.perm {xs' ys' : List Bucket} (h : Grown key xs ys) (hxs : xs.Perm xs')
    (hys : ys.Perm ys') : Grown key xs' ys' where
  total_le := by
    rw [← total_perm hxs, ← total_perm hys]
    exact h.total_le
  countWhere_eq test htest hbelow := by
    rw [← countWhere_perm hxs, ← countWhere_perm hys]
    exact h.countWhere_eq test htest hbelow

theorem Grown.append {fs gs : List Bucket} (hfront : Grown key fs gs) (h : Grown key xs ys) :
    Grown key (fs ++ xs) (gs ++ ys) where
  total_le := by
    have hfs := hfront.total_le
    have hxs := h.total_le
    rw [total_append, total_append]
    omega
  countWhere_eq test htest hbelow := by
    rw [countWhere_append, countWhere_append, hfront.countWhere_eq test htest hbelow,
      h.countWhere_eq test htest hbelow]

theorem grown_of_forall_le (hxs : ∀ b ∈ xs, key.le b.1 = true) (hys : ∀ b ∈ ys, key.le b.1 = true)
    (htotal : total xs ≤ total ys) : Grown key xs ys where
  total_le := htotal
  countWhere_eq test _ hbelow := by
    rw [countWhere_of_forall_not fun b hb => hbelow b.1 (hxs b hb),
      countWhere_of_forall_not fun b hb => hbelow b.1 (hys b hb)]

theorem Grown.isNan_eq_false (h : Grown key xs ys) (hpos : ∀ b ∈ ys, 0 < b.2)
    (hnan : ∀ b ∈ xs, b.1.isNan = false) : ∀ b ∈ ys, b.1.isNan = false := by
  intro b hb
  cases hb' : b.1.isNan with
  | false => rfl
  | true =>
      exfalso
      have hvalue : ByValue (indicator Number.isNan) := by
        intro a c hac
        rw [indicator, indicator, Number.isNan_of_same_left hac, Number.isNan_of_same_right hac]
      have hcount := h.countWhere_eq Number.isNan hvalue fun k hk => Number.isNan_of_le_right hk
      rw [countWhere_of_forall_not hnan] at hcount
      have hsome : 0 < countWhere Number.isNan ys :=
        (countWhere_pos_iff hpos).mpr (List.any_eq_true.mpr ⟨b, hb, hb'⟩)
      omega

/-- Below the key there are no buckets for new numbers. -/
theorem Grown.exists_same (h : Grown key xs ys) (hxs : ∀ b ∈ xs, 0 < b.2)
    (hys : ∀ b ∈ ys, 0 < b.2) {b : Bucket} (hb : b ∈ ys) (hnan : b.1.isNan = false)
    (hbelow : key.le b.1 = false) : ∃ c ∈ xs, c.1.same b.1 = true := by
  have hcount := h.countWhere_eq (fun k => k.same b.1) (byValue_same b.1) fun k hk => by
    cases hsame : k.same b.1 with
    | false => rfl
    | true => rw [← Number.le_congr_right hsame, hk] at hbelow; cases hbelow
  exact exists_same_of_countWhere_eq hys hxs hb hnan hcount

end Bucket

/-! ## The key of a rank -/

namespace Percentile

/-- **A key does not go down when nothing is added below it.** -/
theorem LeastReaching.le_of_grown {xs ys : List Bucket} {r r' : Int} {key key' : Number}
    (h : LeastReaching xs r key) (h' : LeastReaching ys r' key') (hgrown : Grown key xs ys)
    (hxs : ∀ b ∈ xs, 0 < b.2) (hys : ∀ b ∈ ys, 0 < b.2) (hnan : ∀ b ∈ ys, b.1.isNan = false)
    (hr : r ≤ r') : key.le key' = true := by
  cases hle : key.le key' with
  | true => rfl
  | false =>
      exfalso
      -- a lower key is one of the old ones, and it has old samples only at most it
      obtain ⟨count, hmem⟩ := h'.held
      obtain ⟨b, hb, hsame⟩ := hgrown.exists_same hxs hys hmem (hnan _ hmem) hle
      have hreaches : r ≤ countWhere (fun k => k.le key') xs := by
        rw [← hgrown.countWhere_eq _ (byValue_le key')
          fun k hk => Number.le_eq_false_of_le hk hle]
        exact Int.le_trans hr h'.reaches
      have hleast := h.least b hb (by
        simpa only [Number.le_congr_right hsame] using hreaches)
      rw [Number.le_congr_right hsame, hle] at hleast
      cases hleast

end Percentile

/-! ## Further buckets and further counts -/

/-- Counts further samples of a table of counts. -/
def addCounts (extra : List Bucket) (t : Table Number Int) : Table Number Int :=
  extra.foldl (fun t b => Table.update Number.same b.1 (fun old => old.getD 0 + b.2) t) t

/-- The second histogram is the first with further buckets: a traversal passes
them anywhere beside the others, and a table counts them under the keys it has
or new ones. -/
inductive Histogram.Extended : Histogram → List Bucket → Histogram → Prop
  | listed {buckets extra buckets' : List Bucket} (h : buckets'.Perm (buckets ++ extra)) :
      Extended (.listed buckets) extra (.listed buckets')
  | live (r : Recorder) (extra : List Bucket) :
      Extended (.live r) extra (.live (extra.foldl Recorder.after r))
  | frozen (f : Frozen) (extra : List Bucket) :
      Extended (.frozen f) extra (.frozen ⟨addCounts extra f.buckets⟩)

theorem counted_foldl_after {extra : List Bucket} (h : ∀ b ∈ extra, 0 ≤ b.2) (r : Recorder) :
    counted (extra.foldl Recorder.after r).buckets = addCounts extra (counted r.buckets) := by
  induction extra generalizing r with
  | nil => rfl
  | cons b extra ih =>
      obtain ⟨key, count⟩ := b
      obtain ⟨n, rfl⟩ := Int.eq_ofNat_of_zero_le (h _ (List.mem_cons_self ..))
      rw [List.foldl_cons, ih fun c hc => h c (List.mem_cons_of_mem _ hc)]
      refine congrArg (addCounts extra) (Table.map_update (fun old => ?_) _)
      cases old with
      | none => simp
      | some v => exact Int.natCast_add v n

namespace Summary

variable {exclude : Exclusion} {key : Number}

theorem retained_append (exclude : Exclusion) (xs ys : List Bucket) :
    retained exclude (xs ++ ys) = retained exclude xs ++ retained exclude ys :=
  List.filter_append ..

theorem grown_retained_append {extra : List Bucket} (h : ∀ b ∈ extra, key.le b.1 = true)
    (visits : List Bucket) :
    Grown key (retained exclude visits) (retained exclude (visits ++ extra)) := by
  have hextra : Grown key [] (retained exclude extra) := by
    refine grown_of_forall_le nofun (fun b hb => h b (mem_retained.mp hb).1) ?_
    exact total_nonneg fun b hb => Int.le_of_lt (count_pos_of_mem_retained hb)
  have happend := (Grown.refl key (retained exclude visits)).append hextra
  rwa [List.append_nil, ← retained_append] at happend

theorem total_retained_singleton_le (exclude : Exclusion) (k : Number) {count count' : Int}
    (h : count ≤ count') :
    total (retained exclude [(k, count)]) ≤ total (retained exclude [(k, count')]) := by
  unfold retained
  rw [List.filter_cons, List.filter_cons]
  cases admits exclude k with
  | false => exact Int.le_refl _
  | true =>
      by_cases hcount : 0 < count
      · have hcount' : 0 < count' := Int.lt_of_lt_of_le hcount h
        simpa [hcount, hcount', total] using h
      · by_cases hcount' : 0 < count'
        · simpa [hcount, hcount', total] using Int.le_of_lt hcount'
        · simp [hcount, hcount', total]

theorem grown_retained_update {k : Number} {count : Int} (hk : key.le k = true)
    (hcount : 0 ≤ count) (t : Table Number Int) :
    Grown key (retained exclude t)
      (retained exclude (Table.update Number.same k (fun old => old.getD 0 + count) t)) := by
  induction t with
  | nil =>
      have hnew : ∀ b ∈ ([(k, 0 + count)] : List Bucket), key.le b.1 = true := by simpa using hk
      exact grown_retained_append hnew []
  | cons entry rest ih =>
      obtain ⟨k', n⟩ := entry
      rw [Table.update]
      cases hsame : k'.same k with
      | false =>
          simp only [Bool.false_eq_true, if_false]
          have hhead := (Grown.refl key (retained exclude [(k', n)])).append ih
          rwa [← retained_append, ← retained_append] at hhead
      | true =>
          simp only [if_true, Option.getD_some]
          have hk' : key.le k' = true := by rwa [Number.le_congr_right hsame]
          have habove : ∀ m : Int, ∀ b ∈ retained exclude [(k', m)], key.le b.1 = true := by
            intro m b hb
            obtain rfl := List.mem_singleton.mp (mem_retained.mp hb).1
            exact hk'
          have hhead := (grown_of_forall_le (habove n) (habove (n + count))
            (total_retained_singleton_le exclude k' (by omega))).append
            (Grown.refl key (retained exclude rest))
          rwa [← retained_append, ← retained_append] at hhead

theorem grown_retained_addCounts {extra : List Bucket}
    (h : ∀ b ∈ extra, 0 ≤ b.2 ∧ key.le b.1 = true) (t : Table Number Int) :
    Grown key (retained exclude t) (retained exclude (addCounts extra t)) := by
  induction extra generalizing t with
  | nil => exact Grown.refl key _
  | cons b extra ih =>
      obtain ⟨hcount, hk⟩ := h b (List.mem_cons_self ..)
      exact (grown_retained_update hk hcount t).trans
        (ih (fun c hc => h c (List.mem_cons_of_mem _ hc)) _)

theorem grown_of_extended {h h' : Histogram} {extra : List Bucket} (hext : h.Extended extra h')
    (habove : ∀ b ∈ extra, 0 ≤ b.2 ∧ key.le b.1 = true) :
    Grown key (retained exclude h.visits) (retained exclude h'.visits) := by
  have hvisits : ∀ t : Table Number Int, (retained exclude t).Perm
      (retained exclude (visitOrder t)) := fun t => (visitOrder_perm t).symm.filter _
  cases hext with
  | listed hperm =>
      exact (grown_retained_append (fun b hb => (habove b hb).2) _).perm (.refl _)
        (hperm.symm.filter _)
  | live r =>
      have hgrown : Grown key (retained exclude (counted r.buckets))
          (retained exclude (addCounts extra (counted r.buckets))) :=
        grown_retained_addCounts habove _
      rw [← counted_foldl_after fun b hb => (habove b hb).1] at hgrown
      exact hgrown.perm (hvisits _) (hvisits _)
  | frozen f =>
      exact (grown_retained_addCounts habove f.buckets).perm (hvisits _) (hvisits _)

/-! ## The key of a fraction -/

open Percentile

theorem Assembled.key_le_of_grown {xs ys : List Bucket} {ps ps' : List Number} {s s' : Summary}
    (hs : Assembled xs ps s) (hs' : Assembled ys ps' s') (hxs : ∀ b ∈ xs, 0 < b.2)
    (hys : ∀ b ∈ ys, 0 < b.2) (hnan : ∀ b ∈ xs, b.1.isNan = false) {p key key' : Number}
    (hp : p ∈ ps) (hp' : p ∈ ps') (hkey : Table.get? Number.same p s.percentiles = some key)
    (hkey' : Table.get? Number.same p s'.percentiles = some key') (hgrown : Grown key xs ys) :
    key.le key' = true := by
  have hnan' := hgrown.isNan_eq_false hys hnan
  obtain ⟨n, hfit⟩ := hs.exists_fitInt
  obtain ⟨n', hfit'⟩ := hs'.exists_fitInt
  obtain ⟨r, hr, hreach⟩ := (hs.followsRule hnan hxs).value p hp key hkey
  obtain ⟨r', hr', hreach'⟩ := (hs'.followsRule hnan' hys).value p hp' key' hkey'
  have hrange : inRange p = true := by
    rw [hs.get?_percentiles hp, keyOf_eq_some_iff] at hkey
    exact hkey.1
  have hranks : r ≤ r' := rank_le_rank hfit hfit' (Int.le_of_lt hs.populated) hgrown.total_le
    hrange hrange (Number.le_refl (isNan_of_inRange hrange)) hr hr'
  exact hreach.le_of_grown hreach' hgrown hxs hys hnan' hranks

/-- **Slower samples never lower a percentile**, whichever way they come into
the histogram and however many there are. -/
theorem key_le_of_extended {h h' : Histogram} {extra : List Bucket} (hext : h.Extended extra h')
    (hnan : ∀ b ∈ retained exclude h.visits, b.1.isNan = false) {ps ps' : List Number}
    {s s' : Summary} (hs : (compute h.visits ps exclude).outcome = .ok (some s))
    (hs' : (compute h'.visits ps' exclude).outcome = .ok (some s')) {p key' : Number}
    (hp : p ∈ ps) (hp' : p ∈ ps') (hkey : Table.get? Number.same p s.percentiles = some key)
    (hslower : ∀ b ∈ extra, 0 < b.2 ∧ key.le b.1 = true)
    (hkey' : Table.get? Number.same p s'.percentiles = some key') : key.le key' = true := by
  obtain ⟨-, -, hs⟩ := compute_eq_ok_iff.mp hs
  obtain ⟨-, -, hs'⟩ := compute_eq_ok_iff.mp hs'
  rw [ofRetained_eq_ok_some_iff] at hs hs'
  refine hs.key_le_of_grown hs' (fun _ hb => count_pos_of_mem_retained hb)
    (fun _ hb => count_pos_of_mem_retained hb) hnan hp hp' hkey hkey' ?_
  exact grown_of_extended hext fun b hb => ⟨Int.le_of_lt (hslower b hb).1, (hslower b hb).2⟩

/-- A sample above the median takes it from three to seven. -/
theorem key_le_of_extended_median : ∃ s s',
    (Histogram.listed [(.int 3, 2), (.int 7, 2)]).Extended [(.int 9, 1)]
        (.listed [(.int 9, 1), (.int 3, 2), (.int 7, 2)])
      ∧ (compute [(.int 3, 2), (.int 7, 2)] [.float .half] .nothing).outcome = .ok (some s)
      ∧ (compute [(.int 9, 1), (.int 3, 2), (.int 7, 2)] [.float .half] .nothing).outcome
        = .ok (some s')
      ∧ Table.get? Number.same (.float .half) s.percentiles = some (.int 3)
      ∧ Table.get? Number.same (.float .half) s'.percentiles = some (.int 7)
      ∧ (Number.int 3).le (.int 7) = true := by
  have hpos : ∀ b ∈ ([(.int 3, 2), (.int 7, 2)] : List Bucket), 0 < b.2 := by decide
  have hpos' : ∀ b ∈ ([(.int 9, 1), (.int 3, 2), (.int 7, 2)] : List Bucket), 0 < b.2 := by decide
  have harrange : Arrangement.arrange [(.int 3, 2), (.int 7, 2)] = [(.int 3, 2), (.int 7, 2)] :=
    Arrangement.arrange_eq (by decide) (by decide +kernel) (by decide +kernel) (.refl _)
  have harrange' : Arrangement.arrange [(.int 9, 1), (.int 3, 2), (.int 7, 2)]
      = [(.int 3, 2), (.int 7, 2), (.int 9, 1)] :=
    Arrangement.arrange_eq (by decide) (by decide +kernel) (by decide +kernel)
      (by decide +kernel)
  have hs : ∃ s, ofRetained [(.int 3, 2), (.int 7, 2)] [.float .half] = .ok (some s)
      ∧ decide (Table.get? Number.same (.float .half) s.percentiles = some (.int 3)) = true := by
    refine exists_summary_of ?_
    simp only [ofRetained, harrange]
    decide +kernel
  have hs' : ∃ s, ofRetained [(.int 9, 1), (.int 3, 2), (.int 7, 2)] [.float .half]
        = .ok (some s)
      ∧ decide (Table.get? Number.same (.float .half) s.percentiles = some (.int 7)) = true := by
    refine exists_summary_of ?_
    simp only [ofRetained, harrange']
    decide +kernel
  obtain ⟨s, hs, hkey⟩ := hs
  obtain ⟨s', hs', hkey'⟩ := hs'
  rw [← outcome_nothing hpos] at hs
  rw [← outcome_nothing hpos'] at hs'
  rw [decide_eq_true_eq] at hkey hkey'
  have hext : (Histogram.listed [(.int 3, 2), (.int 7, 2)]).Extended [(.int 9, 1)]
      (.listed [(.int 9, 1), (.int 3, 2), (.int 7, 2)]) := .listed (by decide +kernel)
  have hmedian : Number.float .half ∈ [Number.float .half] := List.mem_singleton_self _
  exact ⟨s, s', hext, hs, hs', hkey, hkey', key_le_of_extended hext
    (by rw [Histogram.visits, retained_nothing hpos]; decide) hs hs' hmedian hmedian hkey
    (by decide +kernel) hkey'⟩

end Summary
end LoadReport
