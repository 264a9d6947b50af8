import LoadReport.Proofs.Binary64.Faults
import LoadReport.Proofs.Histogram.Entries
import LoadReport.Proofs.Summary.Outcome

/-!
# What is passed over

A bucket that the exclusion takes out, or that has no samples in it, is to be
as good as absent. The summary is computed from the retained buckets alone, so
on this side there is little to show: the outcome is that of the retained
buckets with no exclusion at all (`outcome_eq_ite`).

What is left is the notice of how many samples were excluded. It is made
before anything is computed, and it cannot be made of a number with too many
digits; then there is a fault where the retained buckets have a summary
(`tooManyDigits_of_excluded`). So two histograms that differ in buckets passed
over have one outcome only if both notices can be made.

Buckets may be put in anywhere (`Padded`), and for a table this is anywhere in
the order of entry. That the sort of the traversal is stable is what makes
this the same as putting them into the traversal.
-/

namespace LoadReport

open Bucket

namespace Summary

variable {exclude : Exclusion} {visits visits' : List Bucket}

/-! ## The notice -/

theorem noticeable_of_le {samples : Int} (h : 10 ^ digitLimit ≤ samples.natAbs) :
    noticeable samples = .error .tooManyDigits := by
  have hpos : 0 < 10 ^ digitLimit := Nat.pow_pos (by decide)
  have hne : samples ≠ 0 := by
    rintro rfl
    exact Nat.not_lt.mpr h hpos
  unfold noticeable Notice.ofExcluded
  rw [if_neg hne, if_neg (Nat.not_lt.mpr h)]
  rfl

theorem outcome_eq_ite (hdecided : Decided exclude visits) (ps : List Number) :
    (compute visits ps exclude).outcome
      = if (excluded exclude visits).natAbs < 10 ^ digitLimit then
          (compute (retained exclude visits) ps .nothing).outcome
        else .error .tooManyDigits := by
  split
  · next hshort =>
      rw [outcome_eq_ofRetained hdecided (noticeable_of_lt hshort),
        outcome_nothing fun _ hb => count_pos_of_mem_retained hb]
  · next hlong =>
      rw [outcome_compute, keep_eq_ok_iff.mpr ⟨hdecided, rfl⟩, Except.ok_bind,
        noticeable_of_le (Nat.not_lt.mp hlong)]
      rfl

/-! ## Keys that the exclusion decides -/

theorem exists_float {key : Number} (h : key.isInt = false) : ∃ x, key = .float x := by
  cases key with
  | int n => cases h
  | float x => exact ⟨x, rfl⟩

theorem decided_nonFinite {visits : List Bucket} (h : ∀ b ∈ visits, b.1.isInt = false) :
    Decided .nonFinite visits := by
  intro b hb
  obtain ⟨x, hx⟩ := exists_float (h b hb)
  rw [hx]
  exact ⟨_, rfl⟩

theorem exists_of_keep_eq_error {fault : Fault} (h : keep exclude visits = .error fault) :
    ∃ b ∈ visits, exclude b.1 = .error fault := by
  induction visits with
  | nil => cases h
  | cons b rest ih =>
      obtain ⟨key, count⟩ := b
      simp only [keep] at h
      rcases Except.bind_eq_error_iff.mp h with hkey | ⟨out, -, h⟩
      · exact ⟨_, List.mem_cons_self .., hkey⟩
      rcases Except.bind_eq_error_iff.mp h with hrest | ⟨kept, -, h⟩
      · obtain ⟨b, hb, hfail⟩ := ih hrest
        exact ⟨b, List.mem_cons_of_mem _ hb, hfail⟩
      · split at h
        · cases h
        · split at h <;> cases h

/-- Only whole keys that do not fit leave the exclusion undecided. -/
theorem eq_intTooLarge_of_nonFinite {key : Number} {fault : Fault}
    (h : Exclusion.nonFinite key = .error fault) : fault = .intTooLarge := by
  unfold Exclusion.nonFinite at h
  cases hkey : key.toBinary64 with
  | ok x =>
      rw [hkey] at h
      cases h
  | error fault' =>
      rw [hkey] at h
      obtain rfl := Except.error.inj h
      exact Number.eq_intTooLarge_of_toBinary64 hkey

theorem keep_of_not_decided (h : ¬ Decided .nonFinite visits) :
    keep .nonFinite visits = .error .intTooLarge := by
  cases hkeep : keep .nonFinite visits with
  | ok kept => exact absurd (keep_eq_ok_iff.mp hkeep).1 h
  | error fault =>
      obtain ⟨b, -, hfail⟩ := exists_of_keep_eq_error hkeep
      rw [eq_intTooLarge_of_nonFinite hfail]

/-- What the exclusion of a throughput summary makes of a traversal hangs on
three things. -/
theorem keep_nonFinite_congr (hdecided : Decided .nonFinite visits ↔ Decided .nonFinite visits')
    (hretained : retained .nonFinite visits = retained .nonFinite visits')
    (hexcluded : excluded .nonFinite visits = excluded .nonFinite visits') :
    keep .nonFinite visits = keep .nonFinite visits' := by
  by_cases h : Decided .nonFinite visits
  · rw [keep_eq_ok_iff.mpr ⟨h, rfl⟩, keep_eq_ok_iff.mpr ⟨hdecided.mp h, rfl⟩, hretained, hexcluded]
  · rw [keep_of_not_decided h, keep_of_not_decided fun h' => h (hdecided.mpr h')]

/-! ## Buckets put in between -/

/-- The exclusion takes the bucket out, or leaves it in without samples. -/
def PassedOver (exclude : Exclusion) (b : Bucket) : Prop :=
  exclude b.1 = .ok true ∨ exclude b.1 = .ok false ∧ b.2 ≤ 0

/-- A list, and the list with extra buckets put in anywhere. -/
inductive Padded (extra : Bucket → Prop) : List Bucket → List Bucket → Prop
  | nil : Padded extra [] []
  | keep (b : Bucket) {xs ys : List Bucket} :
      Padded extra xs ys → Padded extra (b :: xs) (b :: ys)
  | pad {b : Bucket} {xs ys : List Bucket} :
      extra b → Padded extra xs ys → Padded extra xs (b :: ys)

variable {xs ys : List Bucket}

theorem Padded.retained_eq (h : Padded (PassedOver exclude) xs ys) :
    retained exclude xs = retained exclude ys := by
  induction h with
  | nil => rfl
  | keep b _ ih =>
      unfold retained at *
      rw [List.filter_cons, List.filter_cons, ih]
  | @pad b xs ys hextra _ ih =>
      have hout : b ∉ retained exclude [b] := by
        rw [mem_retained]
        rintro ⟨-, hadmitted, hpos⟩
        rcases hextra with hout | ⟨-, hempty⟩
        · rw [hadmitted] at hout
          cases hout
        · omega
      rw [ih]
      unfold retained at *
      rw [List.filter_cons]
      split
      · next htest =>
          rw [List.filter_cons, if_pos htest] at hout
          exact absurd (List.mem_cons_self ..) hout
      · rfl

theorem Padded.decided_iff (h : Padded (PassedOver exclude) xs ys) :
    Decided exclude xs ↔ Decided exclude ys := by
  unfold Decided
  induction h with
  | nil => rfl
  | keep b _ ih => rw [List.forall_mem_cons, List.forall_mem_cons, ih]
  | pad hextra _ ih =>
      rw [List.forall_mem_cons, ih]
      refine ⟨fun hall => ⟨?_, hall⟩, And.right⟩
      rcases hextra with hout | ⟨hin, -⟩
      · exact ⟨true, hout⟩
      · exact ⟨false, hin⟩

/-! ## The outcome -/

theorem decided_visits_iff (exclude : Exclusion) (h : Histogram) :
    Decided exclude h.visits ↔ Decided exclude h.entries :=
  ⟨fun hall b hb => hall b (h.visits_perm.symm.subset hb),
    fun hall b hb => hall b (h.visits_perm.subset hb)⟩

theorem excluded_visits (exclude : Exclusion) (h : Histogram) :
    excluded exclude h.visits = excluded exclude h.entries :=
  countWhere_perm h.visits_perm

theorem outcome_ofThroughput_padded {h h' : Histogram} (hkind : h.isTable = h'.isTable)
    (hpadded : Padded (PassedOver .nonFinite) h.entries h'.entries)
    (hshort : (excluded .nonFinite h.entries).natAbs < 10 ^ digitLimit)
    (hshort' : (excluded .nonFinite h'.entries).natAbs < 10 ^ digitLimit) (ps : List Number) :
    (ofThroughput h' ps).outcome = (ofThroughput h ps).outcome := by
  unfold ofThroughput
  rw [← excluded_visits] at hshort hshort'
  have hdecided : Decided .nonFinite h.visits ↔ Decided .nonFinite h'.visits := by
    rw [decided_visits_iff, decided_visits_iff, hpadded.decided_iff]
  by_cases hall : Decided .nonFinite h.visits
  · have hretained : retained .nonFinite h.visits = retained .nonFinite h'.visits :=
      Histogram.filter_visits_eq hkind hpadded.retained_eq
    rw [outcome_eq_ite hall, outcome_eq_ite (hdecided.mp hall), if_pos hshort, if_pos hshort',
      hretained]
  · rw [outcome_compute, outcome_compute, keep_of_not_decided hall,
      keep_of_not_decided fun h' => hall (hdecided.mpr h')]

/-- **What is passed over does not show**, as long as its number can be
written. A summary is that of the retained buckets without an exclusion; and
buckets put in anywhere in a histogram, which the exclusion takes out or which
are empty, leave the outcome for throughput as it is. -/
theorem outcome_retained (hdecided : Decided exclude visits) (ps : List Number) :
    (compute visits ps exclude).outcome
        = (if (excluded exclude visits).natAbs < 10 ^ digitLimit then
            (compute (retained exclude visits) ps .nothing).outcome
          else .error .tooManyDigits)
      ∧ ∀ h h' : Histogram, h.isTable = h'.isTable →
        Padded (PassedOver .nonFinite) h.entries h'.entries →
        (excluded .nonFinite h.entries).natAbs < 10 ^ digitLimit →
        (excluded .nonFinite h'.entries).natAbs < 10 ^ digitLimit →
        (ofThroughput h' ps).outcome = (ofThroughput h ps).outcome :=
  ⟨outcome_eq_ite hdecided ps,
    fun _ _ hkind hpadded hshort hshort' =>
      outcome_ofThroughput_padded hkind hpadded hshort hshort' ps⟩

/-- Ten twice and twenty once, and the same among buckets of NaN, of both
infinities and of nothing. -/
theorem outcome_retained_polluted :
    Padded (PassedOver .nonFinite) [(.float (.ofInt 10), 2), (.float (.ofInt 20), 1)]
        [(.float .nan, 5), (.float (.ofInt 10), 2), (.float (.infinite false), 3),
          (.float (.infinite true), 1), (.float (.ofInt 15), 0), (.float (.ofInt 20), 1)]
      ∧ (ofThroughput (.frozen ⟨[(.float .nan, 5), (.float (.ofInt 10), 2),
            (.float (.infinite false), 3), (.float (.infinite true), 1), (.float (.ofInt 15), 0),
            (.float (.ofInt 20), 1)]⟩) [.float .half]).outcome
          = (ofThroughput (.frozen ⟨[(.float (.ofInt 10), 2), (.float (.ofInt 20), 1)]⟩)
              [.float .half]).outcome
      ∧ (compute [(.float .nan, 5), (.float (.ofInt 10), 2), (.float (.ofInt 15), 0)]
            [.float .half] .nonFinite).outcome
          = (compute [(.float (.ofInt 10), 2)] [.float .half] .nothing).outcome := by
  have hpadded : Padded (PassedOver .nonFinite)
      [(.float (.ofInt 10), 2), (.float (.ofInt 20), 1)]
      [(.float .nan, 5), (.float (.ofInt 10), 2), (.float (.infinite false), 3),
        (.float (.infinite true), 1), (.float (.ofInt 15), 0), (.float (.ofInt 20), 1)] := by
    refine .pad (.inl rfl) (.keep _ (.pad (.inl rfl) (.pad (.inl rfl) (.pad ?_ (.keep _ .nil)))))
    exact .inr ⟨by decide +kernel, by decide⟩
  have hdecided : Decided .nonFinite
      [(.float .nan, 5), (.float (.ofInt 10), 2), (.float (.ofInt 15), 0)] :=
    decided_nonFinite (by decide)
  obtain ⟨hcompute, hthroughput⟩ := outcome_retained hdecided [.float .half]
  have hretained : retained .nonFinite
      [(.float .nan, 5), (.float (.ofInt 10), 2), (.float (.ofInt 15), 0)]
        = [(.float (.ofInt 10), 2)] := by decide +kernel
  rw [if_pos (by decide +kernel), hretained] at hcompute
  exact ⟨hpadded, hthroughput (.frozen _) (.frozen _) rfl hpadded (by decide +kernel)
    (by decide +kernel), hcompute⟩

/-- One infinity more than can be written: the notice of the excluded samples
is refused, and there is no summary of the two that are left. -/
theorem tooManyDigits_of_excluded :
    Padded (PassedOver .nonFinite) [(.float (.ofInt 2), 3)]
        [(.float .nan, 10 ^ 4300 - 1), (.float (.infinite false), 1), (.float (.ofInt 2), 3)]
      ∧ (ofThroughput (.listed [(.float .nan, 10 ^ 4300 - 1), (.float (.infinite false), 1),
          (.float (.ofInt 2), 3)]) []).outcome = .error .tooManyDigits
      ∧ ∃ s, (ofThroughput (.listed [(.float (.ofInt 2), 3)]) []).outcome = .ok (some s) := by
  refine ⟨.pad (.inl rfl) (.pad (.inl rfl) (.keep _ .nil)), ?_, ?_⟩
  · unfold ofThroughput
    rw [outcome_eq_ite (decided_nonFinite (by decide)), if_neg (by decide +kernel)]
  · refine exists_summary ?_
    unfold ofThroughput
    rw [outcome_eq_ite (decided_nonFinite (by decide)), if_pos (by decide +kernel)]
    decide +kernel

end Summary
end LoadReport
