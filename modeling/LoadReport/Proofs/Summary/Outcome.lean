import LoadReport.Proofs.Except
import LoadReport.Proofs.Histogram.Weight
import LoadReport.Summary.Basic

/-!
# What a summary is made of

`compute` reads a traversal, makes notices on the way and stops at the first
fault. This file says what its outcome depends on, so that nothing else has
to go through its steps again.

- **The retained part.** `retained` is declared on the traversal, as a
  filter; `keep_eq_ok_iff` shows that `keep` arrives at it, and that it does
  so unless the exclusion fails on a key.
- **The rest.** What follows is a function of the retained buckets alone,
  `ofRetained`, apart from the notice of what was excluded
  (`outcome_compute`).
- **Inversion.** `Assembled` lists the steps behind a summary, one field a
  step, and every summary that is returned has it
  (`ofRetained_eq_ok_some_iff`).
-/

namespace LoadReport

/-! ## Sequencing -/

/-- Notices do not decide how a computation goes on. -/
theorem Noted.outcome_bind {α β : Type} (x : Noted α) (next : α → Noted β) :
    (x >>= next).outcome = x.outcome >>= fun a => (next a).outcome := by
  cases h : x.outcome with
  | error fault => rw [Noted.bind_of_error h]; rfl
  | ok a => rw [Noted.bind_of_ok h]; rfl

namespace Summary

open Bucket

/-! ## The retained part -/

def admits (exclude : Exclusion) (key : Number) : Bool :=
  match exclude key with
  | .ok out => !out
  | .error _ => false

def retained (exclude : Exclusion) (visits : List Bucket) : List Bucket :=
  visits.filter fun b => admits exclude b.1 && decide (0 < b.2)

def excluded (exclude : Exclusion) (visits : List Bucket) : Int :=
  countWhere (fun key => !admits exclude key) visits

theorem mem_retained {exclude : Exclusion} {visits : List Bucket} {b : Bucket} :
    b ∈ retained exclude visits ↔ b ∈ visits ∧ exclude b.1 = .ok false ∧ 0 < b.2 := by
  rw [retained, List.mem_filter, Bool.and_eq_true, decide_eq_true_eq, admits]
  cases exclude b.1 with
  | error _ => simp
  | ok out => cases out <;> simp

theorem count_pos_of_mem_retained {exclude : Exclusion} {visits : List Bucket} {b : Bucket}
    (h : b ∈ retained exclude visits) : 0 < b.2 :=
  (mem_retained.mp h).2.2

/-- The exclusion answers on every key of a traversal. -/
def Decided (exclude : Exclusion) (visits : List Bucket) : Prop :=
  ∀ b ∈ visits, ∃ out, exclude b.1 = .ok out

theorem keep_eq_ok_iff {exclude : Exclusion} {visits : List Bucket} {kept : Kept} :
    keep exclude visits = .ok kept ↔
      Decided exclude visits
        ∧ kept = { buckets := retained exclude visits, excluded := excluded exclude visits } := by
  induction visits generalizing kept with
  | nil => simp [keep, Decided, retained, excluded, countWhere, eq_comm]
  | cons b rest ih =>
      obtain ⟨key, count⟩ := b
      simp only [keep, Except.bind_eq_ok_iff, ih]
      constructor
      · rintro ⟨out, hout, k, ⟨hall, rfl⟩, h⟩
        refine ⟨fun b hb => ?_, ?_⟩
        · rcases List.mem_cons.mp hb with rfl | hb
          · exact ⟨out, hout⟩
          · exact hall b hb
        · cases out <;> by_cases hcount : 0 < count <;>
            simp_all [retained, excluded, countWhere, admits]
      · rintro ⟨hall, rfl⟩
        obtain ⟨out, hout⟩ := hall _ (List.mem_cons_self ..)
        refine ⟨out, hout, _, ⟨fun b hb => hall b (List.mem_cons_of_mem _ hb), rfl⟩, ?_⟩
        cases out <;> by_cases hcount : 0 < count <;>
          simp_all [retained, excluded, countWhere, admits]

/-! ## The rest of the computation -/

def ofRetained (buckets : List Bucket) (percentiles : List Number) :
    Except Fault (Option Summary) := do
  let total := Bucket.total buckets
  if total < 1 then
    return none
  let ascending := Arrangement.arrange buckets
  let resolved ← (Percentile.resolve ascending total [] percentiles).outcome
  let mean ← meanOf ascending total
  let deviations ← buckets.mapM fun b => squaredDeviation mean b.1
  let stddev ← spreadOf deviations total
  let max ← greatest ascending
  return some { mean, stddev, max, percentiles := resolved }

/-- The notice of what was excluded can be given, if one is due. -/
def noticeable (samples : Int) : Except Fault Unit :=
  if samples = 0 then .ok () else (Notice.ofExcluded samples).map fun _ => ()

theorem noticeable_of_lt {samples : Int} (h : samples.natAbs < 10 ^ digitLimit) :
    noticeable samples = .ok () := by
  unfold noticeable
  rw [Notice.ofExcluded_eq_ok_iff.mpr ⟨h, rfl⟩]
  split <;> rfl

theorem outcome_compute (visits : List Bucket) (percentiles : List Number) (exclude : Exclusion) :
    (compute visits percentiles exclude).outcome
      = keep exclude visits >>= fun kept =>
          noticeable kept.excluded >>= fun _ => ofRetained kept.buckets percentiles := by
  unfold compute noticeable ofRetained
  simp only [Noted.outcome_bind, Noted.lift_outcome]
  congr 1
  funext kept
  by_cases h : kept.excluded = 0
  · simp only [h, ne_eq, not_true_eq_false, if_false, if_true, apply_ite Noted.outcome,
      Noted.outcome_bind, Noted.note_outcome, Noted.lift_outcome, Noted.pure_outcome]
    rfl
  · simp only [h, ne_eq, not_false_eq_true, if_false, if_true, apply_ite Noted.outcome,
      Noted.outcome_bind, Noted.note_outcome, Noted.lift_outcome, Noted.pure_outcome]
    cases Notice.ofExcluded kept.excluded <;> rfl

theorem compute_eq_ok_iff {visits : List Bucket} {percentiles : List Number}
    {exclude : Exclusion} {result : Option Summary} :
    (compute visits percentiles exclude).outcome = .ok result ↔
      Decided exclude visits ∧ noticeable (excluded exclude visits) = .ok ()
        ∧ ofRetained (retained exclude visits) percentiles = .ok result := by
  rw [outcome_compute, Except.bind_eq_ok_iff]
  simp only [keep_eq_ok_iff, Except.bind_eq_ok_iff]
  constructor
  · rintro ⟨kept, ⟨hdecided, rfl⟩, ⟨⟩, hnotice, h⟩
    exact ⟨hdecided, hnotice, h⟩
  · rintro ⟨hdecided, hnotice, h⟩
    exact ⟨_, ⟨hdecided, rfl⟩, (), hnotice, h⟩

theorem outcome_eq_ofRetained {visits : List Bucket} {exclude : Exclusion}
    (hdecided : Decided exclude visits)
    (hnotice : noticeable (excluded exclude visits) = .ok ()) (percentiles : List Number) :
    (compute visits percentiles exclude).outcome
      = ofRetained (retained exclude visits) percentiles := by
  rw [outcome_compute, keep_eq_ok_iff.mpr ⟨hdecided, rfl⟩]
  show (noticeable (excluded exclude visits) >>= fun _ => _) = _
  rw [hnotice]
  rfl

/-! ## Nothing excluded -/

theorem retained_eq_self {exclude : Exclusion} {visits : List Bucket}
    (h : ∀ b ∈ visits, admits exclude b.1 = true) (hpos : ∀ b ∈ visits, 0 < b.2) :
    retained exclude visits = visits :=
  List.filter_eq_self.mpr fun b hb => by rw [h b hb, decide_eq_true (hpos b hb), Bool.and_self]

theorem excluded_eq_zero {exclude : Exclusion} {visits : List Bucket}
    (h : ∀ b ∈ visits, admits exclude b.1 = true) : excluded exclude visits = 0 :=
  countWhere_of_forall_not fun b hb => by rw [h b hb, Bool.not_true]

/-- If nothing is excluded, the outcome is that of the whole traversal. -/
theorem outcome_of_admits {exclude : Exclusion} {visits : List Bucket}
    (hdecided : Decided exclude visits) (h : ∀ b ∈ visits, admits exclude b.1 = true)
    (hpos : ∀ b ∈ visits, 0 < b.2) (percentiles : List Number) :
    (compute visits percentiles exclude).outcome = ofRetained visits percentiles := by
  have hnotice : noticeable (excluded exclude visits) = .ok () := by
    rw [excluded_eq_zero h]
    rfl
  rw [outcome_eq_ofRetained hdecided hnotice, retained_eq_self h hpos]

theorem retained_nothing {visits : List Bucket} (hpos : ∀ b ∈ visits, 0 < b.2) :
    retained .nothing visits = visits :=
  retained_eq_self (fun _ _ => rfl) hpos

theorem outcome_nothing {visits : List Bucket} (hpos : ∀ b ∈ visits, 0 < b.2)
    (percentiles : List Number) :
    (compute visits percentiles .nothing).outcome = ofRetained visits percentiles :=
  outcome_of_admits (fun _ _ => ⟨_, rfl⟩) (fun _ _ => rfl) hpos percentiles

/-! ## Inversion -/

/-- The steps behind a summary of retained buckets. -/
structure Assembled (buckets : List Bucket) (percentiles : List Number) (s : Summary) : Prop where
  populated : 1 ≤ total buckets
  resolved : (Percentile.resolve (Arrangement.arrange buckets) (total buckets) []
    percentiles).outcome = .ok s.percentiles
  mean : meanOf (Arrangement.arrange buckets) (total buckets) = .ok s.mean
  spread : ∃ deviations, buckets.mapM (fun b => squaredDeviation s.mean b.1) = .ok deviations
    ∧ spreadOf deviations (total buckets) = .ok s.stddev
  greatest : greatest (Arrangement.arrange buckets) = .ok s.max

theorem Assembled.exists_total {buckets : List Bucket} {ps : List Number} {s : Summary}
    (h : Assembled buckets ps s) : ∃ n : Nat, total buckets = n ∧ 0 < n := by
  have hpopulated := h.populated
  obtain ⟨n, hn⟩ := Int.eq_ofNat_of_zero_le (Int.le_of_lt hpopulated)
  exact ⟨n, hn, by omega⟩

theorem Assembled.arrange_ne_nil {buckets : List Bucket} {ps : List Number} {s : Summary}
    (h : Assembled buckets ps s) : Arrangement.arrange buckets ≠ [] := by
  refine ne_nil_of_total_pos ?_
  rw [total_perm (Arrangement.arrange_perm buckets)]
  exact h.populated

theorem ofRetained_eq_ok_some_iff {buckets : List Bucket} {percentiles : List Number}
    {s : Summary} :
    ofRetained buckets percentiles = .ok (some s) ↔ Assembled buckets percentiles s := by
  unfold ofRetained
  dsimp only
  split
  · next hempty =>
      refine ⟨fun h => (by cases h), fun h => ?_⟩
      have := h.populated
      omega
  · next hpopulated =>
      simp only [Except.bind_eq_ok_iff]
      constructor
      · rintro ⟨resolved, hresolved, mean, hmean, deviations, hdeviations, stddev, hstddev, max,
          hmax, h⟩
        obtain rfl := Option.some.inj (Except.ok.inj h)
        exact ⟨by omega, hresolved, hmean, ⟨deviations, hdeviations, hstddev⟩, hmax⟩
      · rintro ⟨-, hresolved, hmean, ⟨deviations, hdeviations, hstddev⟩, hmax⟩
        exact ⟨_, hresolved, _, hmean, _, hdeviations, _, hstddev, _, hmax, rfl⟩

theorem ofRetained_eq_ok_none_iff {buckets : List Bucket} {percentiles : List Number} :
    ofRetained buckets percentiles = .ok none ↔ total buckets < 1 := by
  unfold ofRetained
  dsimp only
  split
  · next hempty => exact ⟨fun _ => hempty, fun _ => rfl⟩
  · next hpopulated =>
      refine ⟨fun h => ?_, fun h => absurd h hpopulated⟩
      simp only [Except.bind_eq_ok_iff] at h
      obtain ⟨_, _, _, _, _, _, _, _, _, _, h⟩ := h
      cases h

/-- If samples are retained, what is returned is a summary. -/
theorem exists_assembled {visits : List Bucket} {percentiles : List Number}
    {exclude : Exclusion} {result : Option Summary}
    (h : (compute visits percentiles exclude).outcome = .ok result)
    (hsome : 1 ≤ total (retained exclude visits)) :
    ∃ s, result = some s ∧ Assembled (retained exclude visits) percentiles s := by
  obtain ⟨-, -, hrest⟩ := compute_eq_ok_iff.mp h
  cases result with
  | none =>
      have hempty := ofRetained_eq_ok_none_iff.mp hrest
      omega
  | some s => exact ⟨s, rfl, ofRetained_eq_ok_some_iff.mp hrest⟩

/-- There is a summary if evaluation finds one. -/
theorem exists_summary {x : Except Fault (Option Summary)}
    (h : (x.toOption.bind id).isSome = true) : ∃ s, x = .ok (some s) := by
  cases x with
  | error fault => cases h
  | ok result =>
      cases result with
      | none => cases h
      | some s => exact ⟨s, rfl⟩

/-- There is a summary that passes a test if evaluation finds one. -/
theorem exists_summary_of {x : Except Fault (Option Summary)} {test : Summary → Bool}
    (h : (x.toOption.bind id).any test = true) : ∃ s, x = .ok (some s) ∧ test s = true := by
  cases x with
  | error fault => cases h
  | ok result =>
      cases result with
      | none => cases h
      | some s => exact ⟨s, rfl, h⟩

end Summary
end LoadReport
