import LoadReport.Proofs.Histogram.Recording

/-!
# Histograms as tables

A recorder and a table of frozen counts keep their buckets in order of entry,
and sort them for a traversal. So two of them may hold the same buckets and
differ in the order of entry, and this file says what of that order a
traversal still shows: that of the NaN buckets, and nothing else
(`SameEntries.filter_visits`).

This needs keys of which no two are the same (`Keyed`), which is what
recording and freezing leave behind. It would not do to ask for different keys
as data: a table that holds `1` and `1.0` would show them in order of entry.
-/

namespace LoadReport

open Bucket

namespace Histogram

def entries : Histogram → List Bucket
  | live r => counted r.buckets
  | frozen f => f.buckets
  | listed buckets => buckets

/-- Whether the buckets are kept in a table, which is sorted for a
traversal. -/
def isTable : Histogram → Bool
  | live _ => true
  | frozen _ => true
  | listed _ => false

variable {h h' : Histogram}

theorem visits_of_isTable (htable : h.isTable = true) : h.visits = visitOrder h.entries := by
  cases h with
  | live r => rfl
  | frozen f => rfl
  | listed buckets => cases htable

theorem visits_perm (h : Histogram) : h.visits.Perm h.entries := by
  cases h with
  | live r => exact visitOrder_perm _
  | frozen f => exact visitOrder_perm _
  | listed buckets => exact .refl _

/-- A selection that leaves the same of two histograms of one kind leaves the
same of their traversals. -/
theorem filter_visits_eq {p : Bucket → Bool} (hkind : h.isTable = h'.isTable)
    (hfilter : h.entries.filter p = h'.entries.filter p) :
    h.visits.filter p = h'.visits.filter p := by
  cases htable : h.isTable with
  | true =>
      rw [visits_of_isTable htable, visits_of_isTable (hkind ▸ htable), filter_visitOrder,
        filter_visitOrder, hfilter]
  | false =>
      cases h with
      | live r => cases htable
      | frozen f => cases htable
      | listed buckets =>
          cases h' with
          | live r => cases hkind
          | frozen f => cases hkind
          | listed buckets' => exact hfilter

/-! ## One bucket for each key -/

structure Keyed (h : Histogram) : Prop where
  isTable : h.isTable = true
  distinct : h.entries.Pairwise fun a b => a.1.same b.1 = false

theorem keyed_ofCalls (calls : List Bucket) : (live (Recorder.ofCalls calls)).Keyed := by
  refine ⟨rfl, ?_⟩
  have hdistinct := (Recorder.tracks_ofCalls calls).distinct
  rw [Table.Distinct, Table.keys, List.pairwise_map] at hdistinct
  exact List.pairwise_map.mpr hdistinct

theorem keyed_freeze (calls : List Bucket) : (frozen (Recorder.ofCalls calls).freeze).Keyed :=
  ⟨rfl, (keyed_ofCalls calls).distinct⟩

theorem keyed_ofPairs (counts : List Bucket) : (frozen (Frozen.ofPairs counts)).Keyed := by
  have hwrites : ∀ t : Table Number Int, Table.Distinct Number.same t →
      Table.Distinct Number.same
        (counts.foldl (fun t entry => Table.put Number.same entry.1 entry.2 t) t) := by
    induction counts with
    | nil => exact fun t ht => ht
    | cons entry counts ih => exact fun t ht => ih _ (Table.distinct_update ht)
  exact ⟨rfl, List.pairwise_map.mp (hwrites [] List.Pairwise.nil)⟩

theorem Keyed.distinct_visits (hkeyed : h.Keyed) :
    h.visits.Pairwise fun a b => a.1.same b.1 = false :=
  hkeyed.distinct.perm h.visits_perm.symm fun hab => by rwa [Number.same_comm]

/-! ## The order of entry -/

/-- Two tables with the same buckets, entered in any order. -/
structure SameEntries (h h' : Histogram) : Prop where
  keyed : h.Keyed
  isTable : h'.isTable = true
  perm : h.entries.Perm h'.entries

/-- **The order of entry shows in the NaN buckets only.** -/
theorem SameEntries.filter_visits (hsame : SameEntries h h') :
    (h.visits.filter fun b => !b.1.isNan) = h'.visits.filter fun b => !b.1.isNan := by
  have hperm : h.visits.Perm h'.visits :=
    h.visits_perm.trans (hsame.perm.trans h'.visits_perm.symm)
  have hnumber : ∀ t : List Bucket, ∀ b ∈ t.filter (fun b => !b.1.isNan), b.1.isNan = false := by
    intro t b hb
    simpa using (List.mem_filter.mp hb).2
  refine eq_of_perm_of_ascending (hsame.keyed.distinct_visits.filter _) ?_ ?_ (hperm.filter _)
  · rw [visits_of_isTable hsame.keyed.isTable, filter_visitOrder]
    exact pairwise_le_visitOrder (hnumber _)
  · rw [visits_of_isTable hsame.isTable, filter_visitOrder]
    exact pairwise_le_visitOrder (hnumber _)

theorem SameEntries.visits_eq (hsame : SameEntries h h')
    (hnan : ∀ b ∈ h.entries, b.1.isNan = false) : h.visits = h'.visits := by
  have hall : ∀ b ∈ h.visits, (!b.1.isNan) = true := by
    intro b hb
    rw [hnan b (h.visits_perm.subset hb), Bool.not_false]
  have hall' : ∀ b ∈ h'.visits, (!b.1.isNan) = true := by
    intro b hb
    rw [hnan b (hsame.perm.symm.subset (h'.visits_perm.subset hb)), Bool.not_false]
  have hfilter := hsame.filter_visits
  rwa [List.filter_eq_self.mpr hall, List.filter_eq_self.mpr hall'] at hfilter

end Histogram
end LoadReport
