import LoadReport.Proofs.Histogram.Weight

/-!
# Buckets for samples

A list of samples can be had back from its buckets as far as amounts go. A
list of buckets `Represents` samples if under every weight by value both weigh
the same and no bucket shows a key that was not a sample; nothing is said of
how many buckets there are or in what order they stand.

Recording samples leaves such a list behind (`represents_ofSamples`), since
counting adds. Amounts under a test are amounts under a weight, so how many
samples there are at most a key can be asked on either side
(`Represents.countWhere_eq`); and a sample that no bucket is the same as
would weigh something on one side only (`Represents.exists_bucket`).
-/

namespace LoadReport

open Bucket

theorem Bucket.sum_indicator (test : Number → Bool) (samples : List Number) :
    (samples.map (indicator test)).sum = samples.countP test := by
  induction samples with
  | nil => rfl
  | cons x samples ih =>
      rw [List.map_cons, List.sum_cons, ih, List.countP_cons]
      unfold indicator
      split <;> push_cast <;> omega

/-- Buckets that hold the same samples by value as a list. -/
structure Represents (buckets : List Bucket) (samples : List Number) : Prop where
  weigh_eq : ∀ weight, ByValue weight → weigh weight buckets = (samples.map weight).sum
  key_mem : ∀ b ∈ buckets, b.1 ∈ samples

namespace Represents

variable {buckets : List Bucket} {samples : List Number}

theorem perm {buckets' : List Bucket} (h : Represents buckets samples)
    (hperm : buckets.Perm buckets') : Represents buckets' samples where
  weigh_eq weight hweight := by rw [← weigh_perm hperm, h.weigh_eq weight hweight]
  key_mem b hb := h.key_mem b (hperm.symm.subset hb)

theorem total_eq (h : Represents buckets samples) : total buckets = samples.length := by
  rw [← weigh_one, h.weigh_eq _ (byValue_const 1)]
  simp

/-- Tests by value pass as many samples as the buckets count. -/
theorem countWhere_eq (h : Represents buckets samples) {test : Number → Bool}
    (htest : ByValue (indicator test)) : countWhere test buckets = samples.countP test := by
  rw [countWhere_eq_weigh, h.weigh_eq _ htest, sum_indicator]

theorem exists_bucket (h : Represents buckets samples) {x : Number} (hx : x ∈ samples)
    (hnan : x.isNan = false) : ∃ b ∈ buckets, b.1.same x = true := by
  have hself : x.same x = true := Number.same_refl hnan
  have hpos : 0 < samples.countP fun k => k.same x := List.countP_pos_iff.mpr ⟨x, hx, hself⟩
  have hcount := h.countWhere_eq (byValue_same x)
  rcases Classical.em (∃ b ∈ buckets, b.1.same x = true) with hsome | hnone
  · exact hsome
  · have hzero : countWhere (fun k => k.same x) buckets = 0 := by
      refine countWhere_of_forall_not fun b hb => ?_
      cases hsame : b.1.same x with
      | false => rfl
      | true => exact absurd ⟨b, hb, hsame⟩ hnone
    omega

end Represents

/-! ## Recording samples -/

namespace Recorder

theorem weigh_foldl_update {weight : Number → Int} (hweight : ByValue weight)
    (samples : List Number) (t : Table Number Nat) :
    weigh weight (counted (samples.foldl
        (fun t key => Table.update Number.same key (fun old => old.getD 0 + 1) t) t))
      = weigh weight (counted t) + (samples.map weight).sum := by
  induction samples generalizing t with
  | nil => simp
  | cons x samples ih =>
      rw [List.foldl_cons, ih, weigh_counted_update hweight, List.map_cons, List.sum_cons]
      push_cast
      omega

theorem weigh_foldl_record {weight : Number → Int} (hweight : ByValue weight)
    (entries : Table Number Nat) (r : Recorder) :
    weigh weight (counted (entries.foldl (fun r e => r.record e.1 e.2) r).buckets)
      = weigh weight (counted r.buckets) + weigh weight (counted entries) := by
  induction entries generalizing r with
  | nil => simp [counted]
  | cons e entries ih =>
      have hcounted : counted (e :: entries) = (e.1, (e.2 : Int)) :: counted entries := rfl
      rw [List.foldl_cons, ih, hcounted, weigh_cons, record, weigh_counted_update hweight]
      exact Int.add_assoc _ _ _

theorem mem_keys_foldl_update {samples : List Number} {t : Table Number Nat} {k : Number}
    (h : k ∈ Table.keys (samples.foldl
      (fun t key => Table.update Number.same key (fun old => old.getD 0 + 1) t) t)) :
    k ∈ t.keys ∨ k ∈ samples := by
  induction samples generalizing t with
  | nil => exact Or.inl h
  | cons x samples ih =>
      rcases ih h with h | h
      · rcases Table.mem_keys_update h with h | rfl
        · exact Or.inl h
        · exact Or.inr (List.mem_cons_self ..)
      · exact Or.inr (List.mem_cons_of_mem _ h)

theorem mem_keys_foldl_record {entries : Table Number Nat} {r : Recorder} {k : Number}
    (h : k ∈ Table.keys (entries.foldl (fun r e => r.record e.1 e.2) r).buckets) :
    k ∈ Table.keys r.buckets ∨ k ∈ entries.keys := by
  induction entries generalizing r with
  | nil => exact Or.inl h
  | cons e entries ih =>
      rcases ih h with h | h
      · rcases Table.mem_keys_update h with h | rfl
        · exact Or.inl h
        · exact Or.inr (List.mem_cons_self ..)
      · exact Or.inr (List.mem_cons_of_mem _ h)

/-- **Recording samples loses nothing by value.** -/
theorem represents_ofSamples (samples : List Number) :
    Represents (ofSamples samples).visits samples := by
  have hperm : (counted (ofSamples samples).buckets).Perm (ofSamples samples).visits :=
    (visitOrder_perm _).symm
  refine Represents.perm ⟨fun weight hweight => ?_, fun b hb => ?_⟩ hperm
  · unfold ofSamples
    rw [weigh_foldl_record hweight]
    unfold occurrences
    rw [weigh_foldl_update hweight]
    simp [counted]
  · obtain ⟨e, he, rfl⟩ := List.mem_map.mp hb
    have hkey : e.1 ∈ Table.keys (ofSamples samples).buckets := Table.mem_keys.mpr ⟨e.2, he⟩
    rcases mem_keys_foldl_record hkey with hkey | hkey
    · cases hkey
    · rcases mem_keys_foldl_update hkey with hkey | hkey
      · cases hkey
      · exact hkey

theorem count_nonneg_of_mem_visits {r : Recorder} {b : Bucket} (h : b ∈ r.visits) : 0 ≤ b.2 := by
  have hb : b ∈ counted r.buckets := (visitOrder_perm _).subset h
  obtain ⟨e, -, rfl⟩ := List.mem_map.mp hb
  exact Int.natCast_nonneg _

end Recorder
end LoadReport
