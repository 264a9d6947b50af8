import LoadReport.Proofs.Binary64.Faults
import LoadReport.Proofs.Summary.Arrangement
import LoadReport.Proofs.Summary.Bisection
import LoadReport.Proofs.Summary.Exclusion
import LoadReport.Proofs.Summary.Magnitude

/-!
# The ways in which a summary fails

A summary is computed in stages, and the first fault ends it. The stages are
gone through once (`failsAt_of_ofRetained`); after that each fault is a fault
of one stage.

- **Percentiles.** A rank can be computed for every fraction if the total fits,
  and no product with a fraction is infinite or NaN, so there is nothing but
  the total to object to (`fitInt_of_rank_eq_error`). But what is asked for may
  be out of range and have too many digits for the notice that it is dropped.
- **Mean.** The total is positive, so nothing is divided by zero. Infinities
  of both signs are products of retained buckets.
- **Spread.** Squares are not below zero, so they are not opposed, and there is
  a root of their sum over the total.
- **Greatest key.** Where samples are retained, there is one.

What is left is magnitude and opposed products, whatever the keys and counts
are (`cause_of_compute`), and besides these the two notices whose numbers are
not bounded: that of the excluded samples (`tooManyDigits_of_related`) and that of
a dropped request.
-/

namespace LoadReport

open Bucket Binary64

namespace Summary

/-! ## Stages -/

variable {buckets : List Bucket} {ps : List Number} {fault : Fault} {n : Nat}

/-- The stage at which a summary of retained buckets is given up. -/
inductive FailsAt (buckets : List Bucket) (ps : List Number) (fault : Fault) : Prop
  | percentiles (h : (Percentile.resolve (Arrangement.arrange buckets) (total buckets) []
      ps).outcome = .error fault)
  | mean (h : meanOf (Arrangement.arrange buckets) (total buckets) = .error fault)
  | deviation {mean : Binary64} {b : Bucket} (hb : b ∈ buckets)
      (h : squaredDeviation mean b.1 = .error fault)
  | spread {mean : Binary64} {squares : List Binary64}
      (hsquares : buckets.mapM (fun b => squaredDeviation mean b.1) = .ok squares)
      (h : spreadOf squares (total buckets) = .error fault)
  | greatest (h : Summary.greatest (Arrangement.arrange buckets) = .error fault)

theorem failsAt_of_ofRetained (h : ofRetained buckets ps = .error fault) :
    1 ≤ total buckets ∧ FailsAt buckets ps fault := by
  unfold ofRetained at h
  dsimp only at h
  split at h
  · cases h
  · refine ⟨by omega, ?_⟩
    rcases Except.bind_eq_error_iff.mp h with h | ⟨_, -, h⟩
    · exact .percentiles h
    rcases Except.bind_eq_error_iff.mp h with h | ⟨mean, -, h⟩
    · exact .mean h
    rcases Except.bind_eq_error_iff.mp h with h | ⟨squares, hsquares, h⟩
    · obtain ⟨b, hb, hfail⟩ := Except.exists_of_mapM_eq_error h
      exact .deviation hb hfail
    rcases Except.bind_eq_error_iff.mp h with h | ⟨_, -, h⟩
    · exact .spread hsquares h
    rcases Except.bind_eq_error_iff.mp h with h | ⟨_, -, h⟩
    · exact .greatest h
    · cases h

/-- A mean is refused because of a product, the total, the quotient of whole
numbers, or the sum of products. -/
theorem fault_of_meanOf (hn : 0 < n) (h : meanOf buckets n = .error fault) :
    (∃ b ∈ buckets, b.1.times b.2 = .error fault) ∨ fitInt n = .error fault
      ∨ (fault = .quotientTooLarge ∧ (buckets.all fun b => b.1.isInt) = true)
      ∨ fault = .sumTooLarge
      ∨ (fault = .opposedInfinities
        ∧ ExactSum.Opposed (fun b : Bucket => b.1.times b.2) buckets) := by
  unfold meanOf at h
  split at h
  · next hints => exact .inr (.inr (.inl ⟨eq_quotientTooLarge (by omega) h, hints⟩))
  · rcases Except.bind_eq_error_iff.mp h with h | ⟨sum, -, h⟩
    · rcases ExactSum.fault_of_sumBy h with hsummand | hlarge | hopposed
      · exact .inl hsummand
      · exact .inr (.inr (.inr (.inl hlarge)))
      · exact .inr (.inr (.inr (.inr hopposed)))
    · exact .inr (.inl (fitInt_of_overCount_eq_error (by omega) h))

theorem fault_of_squaredDeviation {mean : Binary64} {key : Number}
    (h : squaredDeviation mean key = .error fault) :
    key.toBinary64 = .error fault ∨ fault = .squareTooLarge := by
  rcases Except.bind_eq_error_iff.mp h with h | ⟨deviation, -, h⟩
  · left
    unfold Number.minus at h
    cases hkey : key.toBinary64 with
    | ok x => rw [hkey] at h; cases h
    | error fault' => rw [hkey] at h; exact h
  · exact .inr (eq_squareTooLarge h)

theorem isBelowZero_of_squares {mean : Binary64} {squares : List Binary64}
    (h : buckets.mapM (fun b => squaredDeviation mean b.1) = .ok squares) :
    ∀ d ∈ squares, d.isBelowZero = false := by
  intro d hd
  obtain ⟨b, -, hb⟩ := Except.exists_of_mem_mapM h hd
  obtain ⟨deviation, -, hsquare⟩ := Except.bind_eq_ok_iff.mp hb
  exact isBelowZero_of_square hsquare

/-- A spread is refused because of the total or the sum of squares. -/
theorem fault_of_spreadOf {squares : List Binary64}
    (hsquares : ∀ d ∈ squares, d.isBelowZero = false) (h : spreadOf squares n = .error fault) :
    fitInt n = .error fault ∨ fault = .sumTooLarge := by
  unfold spreadOf at h
  split at h
  · rcases Except.bind_eq_error_iff.mp h with h | ⟨sum, hsum, h⟩
    · rcases ExactSum.fault_of_sumBy h with ⟨d, -, hd⟩ | hlarge | ⟨-, -, d, hd, hbelow⟩
      · cases hd
      · exact .inr hlarge
      · obtain rfl := Except.ok.inj hbelow
        exact nomatch hsquares _ hd
    · rcases Except.bind_eq_error_iff.mp h with h | ⟨variance, hvariance, h⟩
      · exact .inl (fitInt_of_overCount_eq_error (by omega) h)
      · have hsum := isBelowZero_of_sumOf hsquares (ExactSum.sumOf_of_sumBy hsum)
        rw [root_eq_ok (isBelowZero_of_overCount hsum (by omega) hvariance)] at h
        cases h
  · cases h

theorem toBinary64_of_greatest_eq_error (hne : buckets ≠ [])
    (h : greatest buckets = .error fault) : ∃ b ∈ buckets, b.1.toBinary64 = .error fault := by
  obtain ⟨b, hb, hgreatest⟩ := exists_greatest_eq hne
  exact ⟨b, hb, hgreatest.symm.trans h⟩

/-! ## Causes -/

/-- What a fault of a summary is due to. -/
inductive Cause (exclude : Exclusion) (visits : List Bucket) (ps : List Number) : Fault → Prop
  /-- Something does not fit that is no rank. -/
  | magnitude {fault : Fault} (overflow : fault.isOverflow = true)
      (no_rank : fault ≠ .floorOfInfinity) : Cause exclude visits ps fault
  /-- Two retained buckets have infinite products with opposite signs. -/
  | opposed {b b' : Bucket} (hb : b ∈ retained exclude visits)
      (hb' : b' ∈ retained exclude visits) (above : b.1.times b.2 = .ok (.infinite false))
      (below : b'.1.times b'.2 = .ok (.infinite true)) : Cause exclude visits ps .opposedInfinities
  /-- The number of excluded samples has more digits than are written. -/
  | digits (h : 10 ^ digitLimit ≤ (excluded exclude visits).natAbs) :
      Cause exclude visits ps .tooManyDigits
  /-- A request has more digits than are written, so it is out of range. -/
  | request {p : Number} (populated : 1 ≤ total (retained exclude visits)) (hp : p ∈ ps)
      (dropped : Percentile.inRange p = false) (long : p.isWritable = false) :
      Cause exclude visits ps .tooManyDigits

variable {exclude : Exclusion} {visits : List Bucket}

theorem Cause.of_intTooLarge (h : fault = .intTooLarge) : Cause exclude visits ps fault := by
  subst h
  exact .magnitude rfl nofun

theorem Cause.of_fitInt {m : Int} (h : fitInt m = .error fault) : Cause exclude visits ps fault :=
  .of_intTooLarge (eq_intTooLarge_of_fitInt h)

theorem Cause.of_toBinary64 {key : Number} (h : key.toBinary64 = .error fault) :
    Cause exclude visits ps fault :=
  .of_intTooLarge (Number.eq_intTooLarge_of_toBinary64 h)

theorem cause_of_ofRetained (h : ofRetained (retained exclude visits) ps = .error fault) :
    Cause exclude visits ps fault := by
  obtain ⟨hpopulated, hstage⟩ := failsAt_of_ofRetained h
  have hperm := Arrangement.arrange_perm (retained exclude visits)
  have hne : Arrangement.arrange (retained exclude visits) ≠ [] :=
    ne_nil_of_total_pos (by rw [total_perm hperm]; exact hpopulated)
  obtain ⟨n, hn⟩ := Int.eq_ofNat_of_zero_le (Int.le_trans Int.one_nonneg hpopulated)
  cases hstage with
  | percentiles h =>
      obtain ⟨p, hp, hrefused⟩ := Percentile.exists_of_resolve_eq_error h
      cases hrefused with
      | unranked hrange hrank =>
          exact .of_fitInt (Percentile.fitInt_of_rank_eq_error (by omega) hrange hrank)
      | unwritable hrange hlong => exact .request hpopulated hp hrange hlong
  | mean h =>
      rw [hn] at h
      rcases fault_of_meanOf (by omega) h with
        ⟨b, -, hb⟩ | hfit | ⟨rfl, -⟩ | rfl | ⟨rfl, ⟨b, hb, habove⟩, b', hb', hbelow⟩
      · exact .of_intTooLarge (Number.eq_intTooLarge_of_times hb)
      · exact .of_fitInt hfit
      · exact .magnitude rfl nofun
      · exact .magnitude rfl nofun
      · exact .opposed (hperm.subset hb) (hperm.subset hb') habove hbelow
  | deviation hb h =>
      rcases fault_of_squaredDeviation h with hkey | rfl
      · exact .of_toBinary64 hkey
      · exact .magnitude rfl nofun
  | spread hsquares h =>
      rw [hn] at h
      rcases fault_of_spreadOf (isBelowZero_of_squares hsquares) h with hfit | rfl
      · exact .of_fitInt hfit
      · exact .magnitude rfl nofun
  | greatest h =>
      obtain ⟨b, -, hb⟩ := toBinary64_of_greatest_eq_error hne h
      exact .of_toBinary64 hb

theorem cause_of_noticeable (h : noticeable (excluded exclude visits) = .error fault) :
    Cause exclude visits ps fault := by
  by_cases hshort : (excluded exclude visits).natAbs < 10 ^ digitLimit
  · rw [noticeable_of_lt hshort] at h
    cases h
  · rw [noticeable_of_le (Nat.not_lt.mp hshort)] at h
    obtain rfl := Except.error.inj h
    exact .digits (Nat.not_lt.mp hshort)

theorem eq_intTooLarge_of_exclusion
    (hexclude : exclude = .nothing ∨ exclude = .nonFinite
      ∨ ∃ relation fixed, exclude = .related relation fixed)
    {key : Number} (h : exclude key = .error fault) : fault = .intTooLarge := by
  rcases hexclude with rfl | rfl | ⟨relation, fixed, rfl⟩
  · cases h
  · exact eq_intTooLarge_of_nonFinite h
  · cases h

/-- **A summary fails for few reasons.** With keys of either kind, NaN and
infinities among them, any counts and any requests, there is a result unless
something does not fit, two retained buckets have opposed infinite products, or a
notice would have to write a number that is too long: of the excluded samples, or
of a request that is out of range. And where samples are retained there is a greatest
key, and a key is looked up only where the search for its rank ended within the
list. -/
theorem cause_of_compute
    (hexclude : exclude = .nothing ∨ exclude = .nonFinite
      ∨ ∃ relation fixed, exclude = .related relation fixed)
    (visits : List Bucket) (ps : List Number) :
    ((∃ result, (compute visits ps exclude).outcome = .ok result)
        ∨ ∃ fault, (compute visits ps exclude).outcome = .error fault
          ∧ Cause exclude visits ps fault)
      ∧ (1 ≤ total (retained exclude visits) →
        let ascending := Arrangement.arrange (retained exclude visits)
        ascending ≠ [] ∧ ∀ rank : Int,
          Percentile.rankIndex rank ascending ≤ ascending.length
            ∧ Percentile.keyAtRank rank 0 ascending
              = (ascending[Percentile.rankIndex rank ascending]?).map (·.1)) := by
  constructor
  · cases h : (compute visits ps exclude).outcome with
    | ok result => exact .inl ⟨result, rfl⟩
    | error fault =>
        refine .inr ⟨fault, rfl, ?_⟩
        rw [outcome_compute] at h
        rcases Except.bind_eq_error_iff.mp h with h | ⟨kept, hkept, h⟩
        · obtain ⟨b, -, hb⟩ := exists_of_keep_eq_error h
          exact .of_intTooLarge (eq_intTooLarge_of_exclusion hexclude hb)
        obtain ⟨-, rfl⟩ := keep_eq_ok_iff.mp hkept
        rcases Except.bind_eq_error_iff.mp h with h | ⟨_, -, h⟩
        · exact cause_of_noticeable h
        · exact cause_of_ofRetained h
  · intro hpopulated ascending
    have hperm := Arrangement.arrange_perm (retained exclude visits)
    refine ⟨ne_nil_of_total_pos (by rw [total_perm hperm]; exact hpopulated), fun rank => ?_⟩
    exact ⟨Percentile.rankIndex_le rank ascending, Percentile.keyAtRank_eq_getElem? fun b hb =>
      count_pos_of_mem_retained (hperm.subset hb)⟩

/-- Twice 2^1023 on either side of zero: the products are infinite. -/
theorem cause_of_compute_opposed :
    let visits : List Bucket := [(.float (.ofInt (2 ^ 1023)), 2), (.float (.ofInt (-2 ^ 1023)), 2)]
    (Exclusion.nonFinite = .nothing ∨ Exclusion.nonFinite = .nonFinite
        ∨ ∃ relation fixed, Exclusion.nonFinite = .related relation fixed)
      ∧ (compute visits [] .nonFinite).outcome = .error .opposedInfinities
      ∧ Cause .nonFinite visits [] .opposedInfinities
      ∧ 1 ≤ total (retained .nonFinite visits)
      ∧ Arrangement.arrange (retained .nonFinite visits) ≠ [] := by
  intro visits
  have hexclude : Exclusion.nonFinite = .nothing ∨ Exclusion.nonFinite = .nonFinite
      ∨ ∃ relation fixed, Exclusion.nonFinite = .related relation fixed := .inr (.inl rfl)
  have hretained : retained .nonFinite visits = visits := by decide +kernel
  have harrange : Arrangement.arrange visits
      = [(.float (.ofInt (-2 ^ 1023)), 2), (.float (.ofInt (2 ^ 1023)), 2)] :=
    Arrangement.arrange_eq (by decide +kernel) (by decide +kernel) (by decide +kernel)
      (.swap ..)
  have houtcome : (compute visits [] .nonFinite).outcome = .error .opposedInfinities := by
    rw [outcome_eq_ofRetained (decided_nonFinite (by decide +kernel))
      (noticeable_of_lt (by decide +kernel)), hretained]
    simp only [ofRetained, harrange]
    decide +kernel
  have hpopulated : 1 ≤ total (retained .nonFinite visits) := by
    rw [hretained]
    decide
  obtain ⟨hends, hkeys⟩ := cause_of_compute hexclude visits []
  refine ⟨hexclude, houtcome, ?_, hpopulated, (hkeys hpopulated).1⟩
  rcases hends with ⟨result, hresult⟩ | ⟨fault, hfault, hcause⟩
  · rw [houtcome] at hresult
    cases hresult
  · rw [houtcome] at hfault
    obtain rfl := Except.error.inj hfault
    exact hcause

/-- One sample more below three than can be written. Without a notice of it
there is a summary of those that are left. -/
theorem tooManyDigits_of_related :
    (compute [(.int 1, 10 ^ 4300 - 1), (.int 2, 1), (.int 5, 3)] []
        (.related .lt (.int 3))).outcome = .error .tooManyDigits
      ∧ Fault.isOverflow .tooManyDigits = false
      ∧ Fault.tooManyDigits ≠ .opposedInfinities
      ∧ ∃ s, (compute [(.int 5, 3)] [] .nothing).outcome = .ok (some s) := by
  have hdecided : ∀ key, ∃ out, Exclusion.related .lt (.int 3) key = .ok out :=
    fun _ => ⟨_, rfl⟩
  refine ⟨?_, rfl, nofun, ?_⟩
  · rw [outcome_eq_ite fun b _ => hdecided b.1, if_neg (by decide +kernel)]
  · exact exists_summary (by decide +kernel)

end Summary
end LoadReport
