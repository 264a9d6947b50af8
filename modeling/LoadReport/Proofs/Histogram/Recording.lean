import Mathlib.Data.List.Induction
import LoadReport.Proofs.Histogram.Traversal

/-!
# Recording is a map of exact totals

A recorder keeps the same knowledge three times: as a running total, as a
table of counts, and as the traversal that is made of the table. A run of
calls is any list of keys with counts, negative ones included, which are
refused. `Records` says what a run is to leave behind, in terms of the
accepted calls alone, and `records_ofCalls` that it does.

The induction is over the run, one call at a time. Its invariant `Tracks`
speaks of the table and not of the traversal, and it says of the counts only
what every weight by value makes of them (`Tracks.weigh_eq`): the count under
a key, and the total, are two such weights. A refused call changes neither
side (`Tracks.refuse`), an accepted one adds the same weight to both
(`Tracks.record`).
-/

namespace LoadReport

open Bucket

namespace Recorder

/-- The recorder after a call: a refused one leaves it as it was. -/
def after (r : Recorder) (call : Bucket) : Recorder :=
  match r.add call.1 call.2 with
  | .ok next => next
  | .error _ => r

/-- The recorder after a run of calls, empty at the start. -/
def ofCalls (calls : List Bucket) : Recorder := calls.foldl after {}

def accepted (calls : List Bucket) : List Bucket := calls.filter fun call => decide (0 ≤ call.2)

theorem ofCalls_append_singleton (calls : List Bucket) (call : Bucket) :
    ofCalls (calls ++ [call]) = (ofCalls calls).after call := by
  simp [ofCalls]

theorem add_of_neg (r : Recorder) (key : Number) {count : Int} (h : count < 0) :
    r.add key count = .error (.negativeCount count) := by
  cases count with
  | ofNat n => exact absurd h (Int.not_lt.mpr (Int.natCast_nonneg n))
  | negSucc n => rfl

theorem after_of_neg (r : Recorder) (key : Number) {count : Int} (h : count < 0) :
    r.after (key, count) = r := by
  simp only [after, add_of_neg r key h]

/-! ## The invariant of a run -/

/-- What the table and the total of a recorder have to do with the accepted
calls of a run. -/
structure Tracks (calls : List Bucket) (r : Recorder) : Prop where
  distinct : Table.Distinct Number.same r.buckets
  weigh_eq : ∀ weight, ByValue weight →
    weigh weight (counted r.buckets) = weigh weight (accepted calls)
  nans : (counted r.buckets).filter (fun b => b.1.isNan)
    = (accepted calls).filter fun call => call.1.isNan
  present : ∀ key, Table.contains Number.same key r.buckets
    = (accepted calls).any fun call => call.1.same key
  first_key : ∀ k ∈ Table.keys r.buckets, k.isNan = false →
    ((accepted calls).find? fun call => call.1.same k).map (·.1) = some k
  total_eq : (r.total : Int) = weigh (fun _ => 1) (accepted calls)

theorem tracks_nil : Tracks [] {} where
  distinct := List.Pairwise.nil
  weigh_eq _ _ := rfl
  nans := rfl
  present _ := rfl
  first_key _ hk := (List.not_mem_nil hk).elim
  total_eq := rfl

theorem Tracks.refuse {calls : List Bucket} {r : Recorder} (h : Tracks calls r) {call : Bucket}
    (hneg : call.2 < 0) : Tracks (calls ++ [call]) r := by
  have hsame : accepted (calls ++ [call]) = accepted calls := by
    simp [accepted, hneg]
  exact ⟨h.distinct, by rw [hsame]; exact h.weigh_eq, by rw [hsame]; exact h.nans,
    by rw [hsame]; exact h.present, by rw [hsame]; exact h.first_key,
    by rw [hsame]; exact h.total_eq⟩

/-- The NaN buckets after a count: a NaN gets a bucket of its own, any other
key leaves them alone. -/
theorem filter_isNan_counted_update (key : Number) (count : Nat) (t : Table Number Nat) :
    ((counted (Table.update Number.same key (fun old => old.getD 0 + count) t)).filter
        fun b => b.1.isNan)
      = ((counted t).filter fun b => b.1.isNan)
        ++ if key.isNan then [(key, (count : Int))] else [] := by
  have hfilter : ∀ s : Table Number Nat, (counted s).filter (fun b => b.1.isNan)
      = counted (s.filter fun entry => entry.1.isNan) := fun s => List.filter_map
  rw [hfilter, hfilter]
  cases hkey : key.isNan with
  | true =>
      have hnew : Table.contains Number.same key t = false := by
        simp [Table.contains, Number.same_of_isNan hkey]
      rw [Table.update_of_not_contains _ hnew]
      simp [counted, hkey]
  | false =>
      rw [Table.filter_update _ hkey fun k hk => Number.isNan_of_same_left hk]
      simp

/-- The first key of a bucket stays the first one, and a key that opens a
bucket is the first of its value. -/
theorem Tracks.first_key_record {calls : List Bucket} {r : Recorder} (h : Tracks calls r)
    (key : Number) (count : Nat) {k : Number} (hk : k ∈ Table.keys (r.record key count).buckets)
    (hnan : k.isNan = false) :
    ((accepted calls ++ [(key, (count : Int))]).find? fun call => call.1.same k).map (·.1)
      = some k := by
  rw [List.find?_append]
  have hold : k ∈ Table.keys r.buckets →
      (((accepted calls).find? fun call => call.1.same k).or
        ([(key, (count : Int))].find? fun call => call.1.same k)).map (·.1) = some k := by
    intro hmem
    obtain ⟨call, hcall, hfst⟩ := Option.map_eq_some_iff.mp (h.first_key k hmem hnan)
    rw [hcall]
    exact congrArg some hfst
  simp only [record, Table.keys_update] at hk
  split at hk
  · exact hold hk
  · next hnew =>
      rcases List.mem_append.mp hk with hmem | hmem
      · exact hold hmem
      · obtain rfl := List.mem_singleton.mp hmem
        have hnone : ((accepted calls).find? fun call => call.1.same k) = none := by
          rw [List.find?_eq_none]
          intro call hcall hsame
          rw [h.present k] at hnew
          exact hnew (List.any_eq_true.mpr ⟨call, hcall, hsame⟩)
        have hself : k.same k = true := Number.same_refl hnan
        simp [hnone, hself]

/-- An accepted call weighs the same on both sides. -/
theorem Tracks.record {calls : List Bucket} {r : Recorder} (h : Tracks calls r) (key : Number)
    (count : Nat) : Tracks (calls ++ [(key, (count : Int))]) (r.record key count) := by
  have haccepted : accepted (calls ++ [(key, (count : Int))])
      = accepted calls ++ [(key, (count : Int))] := by
    simp [accepted]
  refine ⟨Table.distinct_update h.distinct, ?_, ?_, ?_, ?_, ?_⟩
  · intro weight hweight
    rw [haccepted, weigh_append, ← h.weigh_eq weight hweight, weigh_cons, weigh_nil, Int.add_zero]
    exact weigh_counted_update hweight key count r.buckets
  · rw [haccepted, List.filter_append, ← h.nans]
    refine (filter_isNan_counted_update key count r.buckets).trans ?_
    cases hkey : key.isNan <;> simp [hkey]
  · intro other
    rw [haccepted, List.any_append, ← h.present other, List.any_cons, List.any_nil, Bool.or_false]
    exact Table.contains_update (@Number.same_trans) key _ r.buckets other
  · intro k hk hnan
    rw [haccepted]
    exact h.first_key_record key count hk hnan
  · rw [haccepted, weigh_append, ← h.total_eq]
    simp [Recorder.record]

theorem tracks_ofCalls (calls : List Bucket) : Tracks calls (ofCalls calls) := by
  induction calls using List.reverseRecOn with
  | nil => exact tracks_nil
  | append_singleton calls call ih =>
      obtain ⟨key, count⟩ := call
      rw [ofCalls_append_singleton]
      rcases Int.lt_or_le count 0 with hneg | hnonneg
      · rw [after_of_neg _ _ hneg]
        exact ih.refuse hneg
      · obtain ⟨n, rfl⟩ := Int.eq_ofNat_of_zero_le hnonneg
        exact ih.record key n

/-- The running total is what the table adds up to. -/
theorem total_counted (calls : List Bucket) :
    Bucket.total (counted (ofCalls calls).buckets) = (ofCalls calls).total := by
  have htracks := tracks_ofCalls calls
  rw [htracks.total_eq, ← htracks.weigh_eq _ (byValue_const 1), weigh_one]

theorem total_visits (calls : List Bucket) :
    Bucket.total (ofCalls calls).visits = (ofCalls calls).total :=
  (total_perm (visitOrder_perm _)).trans (total_counted calls)

/-! ## What a run leaves behind -/

/-- What a run of calls is to leave behind, in what can be asked of a
recorder. Under a number stands what was recorded under its value, and under
NaN nothing. Each NaN has a bucket of its own and the other keys one for
each value, which shows the key that was first recorded and the count that
stands under it. The total is that of all counts recorded, and that of all
counts a visitor is given. -/
structure Records (calls : List Bucket) (r : Recorder) : Prop where
  get_eq : ∀ key, key.isNan = false →
    (r.get key : Int) = countWhere (fun k => k.same key) (accepted calls)
  get_nan : ∀ key, key.isNan = true → r.get key = 0
  nan_buckets : r.visits.filter (fun b => b.1.isNan)
    = (accepted calls).filter fun call => call.1.isNan
  distinct : r.visits.Pairwise fun a b => a.1.same b.1 = false
  present : ∀ call ∈ accepted calls, call.1.isNan = false →
    ∃ b ∈ r.visits, b.1.same call.1 = true
  first_key : ∀ b ∈ r.visits, b.1.isNan = false →
    ((accepted calls).find? fun call => call.1.same b.1).map (·.1) = some b.1
  count_eq : ∀ b ∈ r.visits, b.1.isNan = false → b.2 = r.get b.1
  total_eq : (r.total : Int) = Bucket.total (accepted calls)
  visited_eq : Histogram.traverse (fun sum b => (sum + b.2, true)) 0 r.visits = (r.total : Int)

theorem mem_visits {r : Recorder} {b : Bucket} :
    b ∈ r.visits ↔ ∃ n : Nat, (b.1, n) ∈ r.buckets ∧ b.2 = n := by
  have hperm : r.visits.Perm (counted r.buckets) := visitOrder_perm _
  obtain ⟨key, count⟩ := b
  simp only [hperm.mem_iff, counted, List.mem_map, Prod.mk.injEq, Prod.exists]
  constructor
  · rintro ⟨k, n, hmem, rfl, rfl⟩
    exact ⟨n, hmem, rfl⟩
  · rintro ⟨n, hmem, rfl⟩
    exact ⟨key, n, hmem, rfl, rfl⟩

/-- With distinct keys, the count under a key is what all the buckets that it
is the same as hold. -/
theorem get_eq_countWhere {r : Recorder} (h : Table.Distinct Number.same r.buckets)
    (key : Number) : (r.get key : Int) = countWhere (fun k => k.same key) (counted r.buckets) := by
  have hfilter := Table.filter_same_of_distinct (@Number.same_symm) (@Number.same_trans) h key
  have hsum : countWhere (fun k => k.same key) (counted r.buckets)
      = ((Table.get? Number.same key r.buckets).toList.map fun n : Nat => (n : Int)).sum := by
    rw [← hfilter]
    simp only [countWhere, counted, List.filter_map, List.map_map]
    rfl
  rw [hsum, get]
  cases Table.get? Number.same key r.buckets <;> simp

/-- A bucket of a table with distinct keys is found under its key. -/
theorem get_of_mem {r : Recorder} (h : Table.Distinct Number.same r.buckets) {key : Number}
    {n : Nat} (hmem : (key, n) ∈ r.buckets) (hnan : key.isNan = false) : r.get key = n := by
  have hfilter := Table.filter_same_of_distinct (@Number.same_symm) (@Number.same_trans) h key
  have hself : key.same key = true := Number.same_refl hnan
  have hn : n ∈ (Table.get? Number.same key r.buckets).toList := by
    rw [← hfilter]
    exact List.mem_map.mpr ⟨(key, n), List.mem_filter.mpr ⟨hmem, hself⟩, rfl⟩
  rw [get, Option.mem_toList.mp hn]
  rfl

theorem Tracks.records {calls : List Bucket} {r : Recorder} (h : Tracks calls r) :
    Records calls r where
  get_eq key _ := by
    rw [get_eq_countWhere h.distinct, countWhere_eq_weigh, countWhere_eq_weigh,
      h.weigh_eq _ (byValue_same key)]
  get_nan key hnan := by
    have hnone : Table.get? Number.same key r.buckets = none := by
      rw [Table.get?, List.find?_eq_none.mpr fun entry _ => by simp [Number.same_of_isNan hnan]]
      rfl
    rw [get, hnone]
    rfl
  nan_buckets := (filter_isNan_visitOrder _).trans h.nans
  distinct := by
    have hkeys : (counted r.buckets).Pairwise fun a b => a.1.same b.1 = false := by
      have hdistinct := h.distinct
      rw [Table.Distinct, Table.keys, List.pairwise_map] at hdistinct
      exact List.pairwise_map.mpr hdistinct
    exact hkeys.perm (visitOrder_perm _).symm fun hab => by rwa [Number.same_comm]
  present call hcall hnan := by
    have hself : call.1.same call.1 = true := Number.same_refl hnan
    have hheld : Table.contains Number.same call.1 r.buckets = true := by
      rw [h.present]
      exact List.any_eq_true.mpr ⟨call, hcall, hself⟩
    obtain ⟨k, hk, hsame⟩ := Table.contains_iff.mp hheld
    obtain ⟨n, hn⟩ := Table.mem_keys.mp hk
    exact ⟨(k, n), mem_visits.mpr ⟨n, hn, rfl⟩, hsame⟩
  first_key b hb hnan := by
    obtain ⟨n, hn, -⟩ := mem_visits.mp hb
    exact h.first_key b.1 (Table.mem_keys.mpr ⟨n, hn⟩) hnan
  count_eq b hb hnan := by
    obtain ⟨n, hn, hcount⟩ := mem_visits.mp hb
    rw [hcount, get_of_mem h.distinct hn hnan]
  total_eq := by rw [h.total_eq, weigh_one]
  visited_eq := by
    rw [traverse_of_true (fun sum b => sum + b.2), foldl_add_counts, h.total_eq, Int.zero_add,
      ← h.weigh_eq _ (byValue_const 1)]
    exact weigh_perm (visitOrder_perm _)

theorem exists_call {calls : List Bucket} {b : Bucket} (hb : b ∈ (ofCalls calls).visits) :
    ∃ call ∈ calls, call.1 = b.1 := by
  have hrecords := (tracks_ofCalls calls).records
  have haccepted : ∀ call ∈ accepted calls, call ∈ calls := fun _ h => (List.mem_filter.mp h).1
  cases hnan : b.1.isNan with
  | true =>
      have hmem : b ∈ (ofCalls calls).visits.filter fun b => b.1.isNan :=
        List.mem_filter.mpr ⟨hb, hnan⟩
      rw [hrecords.nan_buckets] at hmem
      exact ⟨b, haccepted b (List.mem_filter.mp hmem).1, rfl⟩
  | false =>
      obtain ⟨call, hcall, hkey⟩ := Option.map_eq_some_iff.mp (hrecords.first_key b hb hnan)
      exact ⟨call, haccepted call (List.mem_of_find?_eq_some hcall), hkey⟩

end Recorder
end LoadReport
