import Mathlib.Data.List.Induction
import LoadReport.Proofs.Summary.Arrangement
import LoadReport.Proofs.Summary.Magnitude

/-!
# Every request is accounted for

A requested fraction ends in one of three ways: it makes an entry, it repeats a
fraction that has one, or a notice is given of it. Which of them it is can be
said without going through the requests one by one (`Accounted`).

- **By value.** Whether a fraction resolves, and the notice of one that does
  not, hang on the fraction and the number of samples alone (`resolves`,
  `notice?`). Fractions that are the same agree in this, so a repeat of an
  unresolved fraction is no repeat but gives its notice again.
- **Entries** are the first occurrences of the fractions that resolve
  (`keys_foldl_enter`), and notices come in the order of the requests
  (`notices_resolve`).
- **The rest of the summary** does not look at the requests, and a request that
  was answered in one list is answered in every other that can be told, also
  alone (`Assembled.exists_of_requests`).
- **Notices** never tell a number with too many digits, whatever becomes of the
  computation (`told_of_compute`).

Nothing here is about the order of the keys: how many samples there are decides
whether a rank is reached.
-/

namespace LoadReport

open Bucket

theorem Noted.lift_bind_of_ok {α β : Type} {x : Except Fault α} {a : α} (h : x = .ok a)
    (next : α → Noted β) : Noted.lift x >>= next = next a := by
  rw [h]
  rfl

theorem Noted.forall_notices_bind {α β : Type} {P : Notice → Prop} {x : Noted α}
    {next : α → Noted β} (hx : ∀ notice ∈ x.notices, P notice)
    (hnext : ∀ a, x.outcome = .ok a → ∀ notice ∈ (next a).notices, P notice) :
    ∀ notice ∈ (x >>= next).notices, P notice := by
  cases houtcome : x.outcome with
  | error fault => rwa [bind_of_error houtcome]
  | ok a =>
      rw [bind_of_ok houtcome]
      exact List.forall_mem_append.mpr ⟨hx, hnext a houtcome⟩

theorem Binary64.natAbs_floor_lt {x : Binary64} {r : Int} (h : x.floor = .ok r) :
    r.natAbs < unitsLimit := by
  unfold Binary64.floor Binary64.floor? at h
  cases hu : x.units? with
  | none =>
      rw [hu] at h
      cases h
  | some u =>
      rw [hu, Option.map_some, Int.fdiv_eq_ediv_of_nonneg _ (Int.natCast_nonneg _)] at h
      rw [← Except.ok.inj h]
      exact Nat.lt_of_le_of_lt (Int.natAbs_ediv_le_natAbs ..)
        (Binary64.representable_of_units? hu).1

namespace Percentile

/-- The fraction is in range and its rank is at most the number of samples. -/
def resolves (total : Int) (p : Number) : Bool :=
  inRange p && (rank p total).toOption.any fun r => decide (r ≤ total)

/-- The notice of a fraction that does not resolve. -/
def notice? (total : Int) (p : Number) : Option Notice :=
  if inRange p then
    (rank p total).toOption.bind fun r => if total < r then some (.unresolved p r) else none
  else some (.dropped p)

/-- The requests, with their places, that come after one that resolves and is
the same. -/
def repeats (total : Int) (ps : List Number) : List (Number × Nat) :=
  ps.zipIdx.filter fun (p, i) => (ps.take i).any fun q => resolves total q && q.same p

variable {total : Int} {p q : Number} {ps : List Number}

theorem resolves_of_rank {r : Int} (hrange : inRange p = true) (hr : rank p total = .ok r) :
    resolves total p = decide (r ≤ total) := by
  rw [resolves, hrange, hr]
  rfl

theorem notice?_of_rank {r : Int} (hrange : inRange p = true) (hr : rank p total = .ok r) :
    notice? total p = if total < r then some (.unresolved p r) else none := by
  rw [notice?, if_pos hrange, hr]
  rfl

theorem exists_rank_le_of_resolves (h : resolves total p = true) :
    inRange p = true ∧ ∃ r, rank p total = .ok r ∧ r ≤ total := by
  obtain ⟨hrange, hrank⟩ := Bool.and_eq_true_iff.mp h
  refine ⟨hrange, ?_⟩
  cases hr : rank p total with
  | error fault =>
      rw [hr] at hrank
      cases hrank
  | ok r =>
      rw [hr] at hrank
      exact ⟨r, rfl, of_decide_eq_true hrank⟩

theorem notice?_eq_none (h : resolves total p = true) : notice? total p = none := by
  obtain ⟨hrange, r, hr, hle⟩ := exists_rank_le_of_resolves h
  rw [notice?_of_rank hrange hr, if_neg (Int.not_lt.mpr hle)]

theorem isSome_notice? {n : Binary64} (hfit : Binary64.fitInt total = .ok n) (htotal : 0 ≤ total)
    (h : resolves total p = false) : (notice? total p).isSome = true := by
  cases hrange : inRange p with
  | false =>
      rw [notice?, hrange]
      rfl
  | true =>
      obtain ⟨r, hr⟩ := exists_rank hfit htotal hrange
      rw [resolves_of_rank hrange hr, decide_eq_false_iff_not] at h
      rw [notice?_of_rank hrange hr, if_pos (Int.not_le.mp h)]
      rfl

theorem resolves_congr {n : Binary64} (hfit : Binary64.fitInt total = .ok n)
    (h : p.same q = true) : resolves total p = resolves total q := by
  unfold resolves
  rw [← inRange_congr h]
  cases hp : inRange p with
  | false => rw [Bool.false_and, Bool.false_and]
  | true => rw [rank_congr hfit h hp]

/-- A key is found for the fractions that resolve. -/
theorem isSome_keyOf {ascending : List Bucket} (hpos : ∀ b ∈ ascending, 0 < b.2)
    (hne : ascending ≠ []) (p : Number) :
    (keyOf ascending (Bucket.total ascending) p).isSome
      = resolves (Bucket.total ascending) p := by
  unfold keyOf resolves
  cases inRange p with
  | false => rfl
  | true =>
      cases rank p (Bucket.total ascending) with
      | error fault => rfl
      | ok r =>
          rw [if_pos rfl, Bool.true_and, Except.toOption, Option.any_some, Bool.eq_iff_iff,
            isSome_keyAtRank hpos hne, Int.zero_add, decide_eq_true_eq]

theorem natAbs_rank_lt {r : Int} (h : rank p total = .ok r) :
    r.natAbs < 10 ^ digitLimit := by
  obtain ⟨product, -, hfloor⟩ := Except.bind_eq_ok_iff.mp h
  have hlt := Binary64.natAbs_floor_lt hfloor
  rw [unitsLimit_eq] at hlt
  exact Nat.lt_trans hlt (by decide +kernel)

/-! ## Entries -/

variable {value : Number → Option Number}

/-- An answer adds the fraction to the keys, and no answer leaves them alone. -/
theorem keys_enter (t : Table Number Number) (p : Number) :
    Table.keys (enter value t p)
      = if (value p).isSome then Table.addKey Number.same t.keys p else t.keys := by
  have hcontains : Table.contains Number.same p t = t.keys.any fun k => k.same p := by
    rw [Table.keys, List.any_map]
    rfl
  rw [enter, Table.addKey, hcontains]
  cases value p with
  | none => split <;> rfl
  | some key =>
      split
      · rfl
      · rw [Table.keys, List.map_append]
        rfl

/-- **Entries are first occurrences** of the requests with an answer. -/
theorem keys_foldl_enter (ps : List Number) :
    Table.keys (ps.foldl (enter value) [])
      = (ps.filter fun p => (value p).isSome).eraseDupsBy Number.same := by
  have hkeys : ps.foldl
        (fun ks p => if (value p).isSome then Table.addKey Number.same ks p else ks)
        (Table.keys ([] : Table Number Number))
      = Table.keys (ps.foldl (enter value) []) :=
    List.foldl_hom Table.keys fun t p => (keys_enter t p).symm
  rw [← hkeys, ← List.foldl_filter, Table.keys_nil, Table.foldl_addKey_nil Number.same_comm]

/-- A fraction has an entry if one that is the same was asked for and has an
answer. -/
theorem contains_foldl_enter_eq (hcongr : ∀ {p q : Number}, p.same q = true → value p = value q)
    (ps : List Number) (p : Number) :
    Table.contains Number.same p (ps.foldl (enter value) [])
      = ps.any fun q => (value q).isSome && q.same p := by
  rw [Table.contains_eq_isSome, get?_foldl_enter hcongr, Table.get?_nil, Option.none_or]
  induction ps with
  | nil => rfl
  | cons q ps ih =>
      rw [List.any_cons, List.any_cons, ← ih]
      cases hsame : q.same p with
      | false => simp
      | true => cases hkey : value p <;> simp [hcongr hsame, hkey]

/-! ## Notices -/

def Answer.notice? (p : Number) : Answer → Option Notice
  | outOfRange notice => some notice
  | unresolved r => some (.unresolved p r)
  | _ => none

section Notices

variable {ascending : List Bucket} {t t' : Table Number Number}

theorem notices_resolve_cons {a : Answer} (h : answer ascending total t p = .ok a) :
    (resolve ascending total t (p :: ps)).notices
      = (a.notice? p).toList ++ (resolve ascending total (a.entered p t) ps).notices := by
  have hlift : (Noted.lift (answer ascending total t p)).outcome = .ok a := h
  rw [resolve, Noted.bind_of_ok hlift]
  cases a <;> simp [Noted.bind_of_ok, Answer.notice?, Answer.entered]

/-- A rank that no bucket reaches is the one that the notice tells. -/
theorem notice?_of_keyAtRank {r : Int} (hpos : ∀ b ∈ ascending, 0 < b.2) (hne : ascending ≠ [])
    (hrange : inRange p = true) (hr : rank p (Bucket.total ascending) = .ok r) :
    Answer.notice? p (match keyAtRank r 0 ascending with
      | some key => .key key
      | none => .unresolved r) = notice? (Bucket.total ascending) p := by
  have hreached : (keyAtRank r 0 ascending).isSome = true ↔ r ≤ 0 + Bucket.total ascending :=
    isSome_keyAtRank hpos hne
  rw [Int.zero_add] at hreached
  rw [notice?_of_rank hrange hr]
  cases hkey : keyAtRank r 0 ascending with
  | some key =>
      rw [hkey] at hreached
      exact (if_neg (Int.not_lt.mpr (hreached.mp rfl))).symm
  | none =>
      rw [hkey] at hreached
      refine (if_pos (Int.not_le.mp fun hle => ?_)).symm
      exact Bool.false_ne_true (hreached.mpr hle)

theorem notice?_of_answer {n : Binary64} {a : Answer}
    (hpos : ∀ b ∈ ascending, 0 < b.2) (hne : ascending ≠ [])
    (hfit : Binary64.fitInt (Bucket.total ascending) = .ok n)
    (hentries : ∀ e ∈ t, resolves (Bucket.total ascending) e.1 = true)
    (h : answer ascending (Bucket.total ascending) t p = .ok a) :
    a.notice? p = notice? (Bucket.total ascending) p := by
  unfold answer at h
  split at h
  · next hold =>
      obtain rfl := Except.ok.inj h
      obtain ⟨e, he, hsame⟩ := List.any_eq_true.mp hold
      have hresolves := hentries e he
      rw [resolves_congr hfit hsame] at hresolves
      rw [notice?_eq_none hresolves]
      rfl
  · cases hrange : inRange p with
    | false =>
        rw [hrange] at h
        obtain ⟨notice, hnotice, rfl⟩ := Except.map_eq_ok_iff.mp h
        obtain ⟨-, rfl⟩ := Notice.ofDropped_eq_ok_iff.mp hnotice
        rw [notice?, hrange]
        rfl
    | true =>
        rw [hrange] at h
        cases hr : rank p (Bucket.total ascending) with
        | error fault => rw [hr] at h; cases h
        | ok r =>
            rw [hr] at h
            obtain rfl := Except.ok.inj h
            exact notice?_of_keyAtRank hpos hne hrange hr

/-- **Notices are given request by request.** -/
theorem notices_resolve {n : Binary64} (hpos : ∀ b ∈ ascending, 0 < b.2) (hne : ascending ≠ [])
    (hfit : Binary64.fitInt (Bucket.total ascending) = .ok n)
    (hentries : ∀ e ∈ t, resolves (Bucket.total ascending) e.1 = true)
    (h : (resolve ascending (Bucket.total ascending) t ps).outcome = .ok t') :
    (resolve ascending (Bucket.total ascending) t ps).notices
      = ps.filterMap (notice? (Bucket.total ascending)) := by
  induction ps generalizing t with
  | nil => rfl
  | cons p ps ih =>
      obtain ⟨a, ha, hrest⟩ := resolve_cons_eq_ok_iff.mp h
      have hentered : ∀ e ∈ a.entered p t, resolves (Bucket.total ascending) e.1 = true := by
        intro e he
        rw [entered_of_answer ha] at he
        rcases mem_enter he with he | ⟨rfl, hkey⟩
        · exact hentries e he
        · rw [← isSome_keyOf hpos hne, hkey]
          rfl
      rw [notices_resolve_cons ha, ih hentered hrest, notice?_of_answer hpos hne hfit hentries ha,
        List.filterMap_cons]
      cases notice? (Bucket.total ascending) p <;> rfl

end Notices

/-! ## The three ways together -/

theorem repeats_append_singleton (ps : List Number) (p : Number) :
    (repeats total (ps ++ [p])).length = (repeats total ps).length
      + (if ps.any fun q => resolves total q && q.same p then 1 else 0) := by
  have hbefore : (ps.zipIdx.filter fun (p', i) =>
        ((ps ++ [p]).take i).any fun q => resolves total q && q.same p') = repeats total ps := by
    refine List.filter_congr fun (p', i) hmem => ?_
    have hlt : i < ps.length := by
      have hget := List.mem_zipIdx_iff_getElem?.mp hmem
      exact (List.getElem?_eq_some_iff.mp hget).1
    simp only [List.take_append_of_le_length (Nat.le_of_lt hlt)]
  rw [repeats, List.zipIdx_append, List.filter_append, List.length_append, hbefore]
  simp only [List.zipIdx_singleton, Nat.zero_add, List.filter_singleton, List.take_left]
  cases ps.any fun q => resolves total q && q.same p <;> rfl

/-- Every request makes an entry, repeats one, or has a notice. -/
theorem length_eq (hcongr : ∀ {p q : Number}, p.same q = true → value p = value q)
    (hvalue : ∀ p, (value p).isSome = resolves total p)
    (hnotice : ∀ p, resolves total p = false → (notice? total p).isSome = true)
    (ps : List Number) :
    ps.length = (ps.foldl (enter value) []).length + (repeats total ps).length
      + (ps.filterMap (notice? total)).length := by
  induction ps using List.reverseRecOn with
  | nil => rfl
  | append_singleton ps p ih =>
      have hheld := contains_foldl_enter_eq hcongr ps p
      simp only [hvalue] at hheld
      rw [List.foldl_append, List.foldl_cons, List.foldl_nil, enter, hheld,
        repeats_append_singleton, List.filterMap_append, List.length_append, List.length_append,
        ih]
      cases hp : resolves total p with
      | true =>
          obtain ⟨key, hkey⟩ := Option.isSome_iff_exists.mp ((hvalue p).trans hp)
          have hsilent := notice?_eq_none hp
          split <;> simp [hkey, hsilent] <;> omega
      | false =>
          have hnone : value p = none := by
            rw [← Option.isNone_iff_eq_none, ← Option.not_isSome, hvalue, hp]
            rfl
          have hnew : (ps.any fun q => resolves total q && q.same p) = false := by
            rw [List.any_eq_false]
            intro q _ hq
            obtain ⟨hresolves, hsame⟩ := Bool.and_eq_true_iff.mp hq
            rw [← hvalue, hcongr hsame, hvalue, hp] at hresolves
            cases hresolves
          obtain ⟨notice, hsome⟩ := Option.isSome_iff_exists.mp (hnotice p hp)
          simp [hnew, hnone, hsome]
          omega

end Percentile

/-! ## What a summary says of its requests -/

namespace Summary

open Percentile

/-- The requests of a summary of so many samples, each accounted for once. -/
structure Accounted (total : Int) (ps : List Number) (s : Summary) : Prop where
  ranked : ∀ p ∈ ps, inRange p = true → ∃ r, rank p total = .ok r
  keys : Table.keys s.percentiles = (ps.filter (resolves total)).eraseDupsBy Number.same
  length : ps.length
    = s.percentiles.length + (repeats total ps).length + (ps.filterMap (notice? total)).length

variable {buckets : List Bucket} {ps : List Number} {s : Summary}

theorem Assembled.isSome_keyOf (h : Assembled buckets ps s) (hpos : ∀ b ∈ buckets, 0 < b.2)
    (p : Number) : (keyOf (Arrangement.arrange buckets) (Bucket.total buckets) p).isSome
      = resolves (Bucket.total buckets) p := by
  have hperm := Arrangement.arrange_perm buckets
  rw [← total_perm hperm]
  exact Percentile.isSome_keyOf (fun b hb => hpos b (hperm.subset hb)) h.arrange_ne_nil p

theorem Assembled.accounted (h : Assembled buckets ps s) (hpos : ∀ b ∈ buckets, 0 < b.2) :
    Accounted (Bucket.total buckets) ps s := by
  obtain ⟨n, hfit⟩ := h.exists_fitInt
  have htotal : 0 ≤ Bucket.total buckets := Int.le_of_lt h.populated
  refine ⟨fun p _ hrange => exists_rank hfit htotal hrange, ?_, ?_⟩
  · rw [resolved_eq_foldl h.resolved, keys_foldl_enter]
    simp only [h.isSome_keyOf hpos]
  · rw [resolved_eq_foldl h.resolved]
    exact length_eq (keyOf_congr hfit) (h.isSome_keyOf hpos)
      (fun p => isSome_notice? hfit htotal) ps

/-- The notices of the requests, in their order. -/
theorem Assembled.notices_resolve (h : Assembled buckets ps s) (hpos : ∀ b ∈ buckets, 0 < b.2) :
    (resolve (Arrangement.arrange buckets) (Bucket.total buckets) [] ps).notices
      = ps.filterMap (notice? (Bucket.total buckets)) := by
  obtain ⟨n, hfit⟩ := h.exists_fitInt
  have hperm := Arrangement.arrange_perm buckets
  have hresolved := h.resolved
  rw [← total_perm hperm] at hfit hresolved ⊢
  exact Percentile.notices_resolve (fun b hb => hpos b (hperm.subset hb)) h.arrange_ne_nil hfit
    (fun e he => absurd he List.not_mem_nil) hresolved

/-- Other requests that can be told leave the rest of the summary alone, and a
request that is in both lists has the same answer. -/
theorem Assembled.exists_of_requests (h : Assembled buckets ps s) {others : List Number}
    (hothers : ∀ q ∈ others, q.isWritable = true) :
    ∃ t, Assembled buckets others t ∧ t.mean = s.mean ∧ t.stddev = s.stddev ∧ t.max = s.max
      ∧ ∀ p ∈ ps, p ∈ others →
        Table.get? Number.same p t.percentiles = Table.get? Number.same p s.percentiles := by
  obtain ⟨n, hfit⟩ := h.exists_fitInt
  obtain ⟨resolved, hresolved⟩ :=
    exists_resolve (Arrangement.arrange buckets) hfit (Int.le_of_lt h.populated) hothers []
  have ht : Assembled buckets others { s with percentiles := resolved } :=
    ⟨h.populated, hresolved, h.mean, h.spread, h.greatest⟩
  refine ⟨_, ht, rfl, rfl, rfl, fun p hp hp' => ?_⟩
  rw [ht.get?_percentiles hp', h.get?_percentiles hp]

/-! ## The notices of a computation -/

/-- The notice of what was excluded, if one is due. -/
def noticeOfExcluded (samples : Int) : List Notice :=
  if samples = 0 then [] else [.excluded samples]

variable {visits : List Bucket} {exclude : Exclusion}

theorem ofExcluded_of_noticeable {samples : Int} (hne : samples ≠ 0)
    (h : noticeable samples = .ok ()) : Notice.ofExcluded samples = .ok (.excluded samples) := by
  rw [noticeable, if_neg hne] at h
  obtain ⟨notice, hnotice, -⟩ := Except.map_eq_ok_iff.mp h
  obtain ⟨-, rfl⟩ := Notice.ofExcluded_eq_ok_iff.mp hnotice
  exact hnotice

theorem notices_compute (h : (compute visits ps exclude).outcome = .ok (some s)) :
    (compute visits ps exclude).notices
      = noticeOfExcluded (excluded exclude visits)
        ++ (resolve (Arrangement.arrange (retained exclude visits))
          (Bucket.total (retained exclude visits)) [] ps).notices := by
  obtain ⟨hdecided, hnoticeable, hrest⟩ := compute_eq_ok_iff.mp h
  have hs := ofRetained_eq_ok_some_iff.mp hrest
  obtain ⟨deviations, hdeviations, hspread⟩ := hs.spread
  have hpopulated : ¬ Bucket.total (retained exclude visits) < 1 := Int.not_lt.mpr hs.populated
  have htotal : Kept.total ⟨retained exclude visits, excluded exclude visits⟩
      = Bucket.total (retained exclude visits) := rfl
  unfold compute
  rw [Noted.lift_bind_of_ok (keep_eq_ok_iff.mpr ⟨hdecided, rfl⟩)]
  simp only [htotal, if_neg hpopulated, Noted.bind_of_ok hs.resolved,
    Noted.lift_bind_of_ok hs.mean, Noted.lift_bind_of_ok hdeviations,
    Noted.lift_bind_of_ok hspread, Noted.lift_bind_of_ok hs.greatest, Noted.pure_notices,
    List.append_nil]
  unfold noticeOfExcluded
  by_cases hnone : excluded exclude visits = 0
  · rw [if_neg (not_not_intro hnone), if_pos hnone, List.nil_append]
  · rw [if_pos hnone, if_neg hnone,
      Noted.lift_bind_of_ok (ofExcluded_of_noticeable hnone hnoticeable)]
    rfl

/-! ## Notices can be told

Two notices are checked before they are given. The third one that tells numbers
needs no check: its fraction is in range and its rank a binary64 number. -/

/-- The numbers of a notice have no more digits than are written. -/
def Told : Notice → Prop
  | .excluded samples => samples.natAbs < 10 ^ digitLimit
  | .noSamples => True
  | .dropped p => p.isWritable = true
  | .unresolved p r => p.isWritable = true ∧ r.natAbs < 10 ^ digitLimit

theorem told_of_answer {ascending : List Bucket} {total : Int} {t : Table Number Number}
    {p : Number} {a : Answer} (h : answer ascending total t p = .ok a) :
    ∀ notice ∈ a.notice? p, Told notice := by
  unfold answer at h
  split at h
  · obtain rfl := Except.ok.inj h
    exact nofun
  · cases hrange : inRange p with
    | false =>
        rw [hrange] at h
        obtain ⟨notice, hnotice, rfl⟩ := Except.map_eq_ok_iff.mp h
        obtain ⟨hwritable, rfl⟩ := Notice.ofDropped_eq_ok_iff.mp hnotice
        rintro _ ⟨⟩
        exact hwritable
    | true =>
        rw [hrange] at h
        obtain ⟨r, hr, rfl⟩ := Except.map_eq_ok_iff.mp h
        split
        · exact nofun
        · rintro _ ⟨⟩
          exact ⟨isWritable_of_inRange hrange, natAbs_rank_lt hr⟩

theorem told_of_resolve {ascending : List Bucket} {total : Int} (t : Table Number Number)
    (ps : List Number) : ∀ notice ∈ (resolve ascending total t ps).notices, Told notice := by
  induction ps generalizing t with
  | nil => exact fun _ hnotice => absurd hnotice List.not_mem_nil
  | cons p ps ih =>
      cases h : answer ascending total t p with
      | error fault =>
          rw [resolve, Noted.bind_of_error h]
          exact fun _ hnotice => absurd hnotice List.not_mem_nil
      | ok a =>
          rw [notices_resolve_cons h]
          refine List.forall_mem_append.mpr ⟨fun notice hnotice => ?_, ih _⟩
          exact told_of_answer h notice (Option.mem_toList.mp hnotice)

/-- **Whatever is noted can be told**, also by a computation that is given up. -/
theorem told_of_compute (visits : List Bucket) (ps : List Number) (exclude : Exclusion) :
    ∀ notice ∈ (compute visits ps exclude).notices, Told notice := by
  unfold compute
  refine Noted.forall_notices_bind nofun fun kept _ => ?_
  have hfigures : ∀ notice ∈ (do
        let resolved ← resolve (Arrangement.arrange kept.buckets) kept.total [] ps
        let mean ← Noted.lift (meanOf (Arrangement.arrange kept.buckets) kept.total)
        let deviations ← Noted.lift (kept.buckets.mapM fun b => squaredDeviation mean b.1)
        let stddev ← Noted.lift (spreadOf deviations kept.total)
        let max ← Noted.lift (greatest (Arrangement.arrange kept.buckets))
        return some { mean, stddev, max, percentiles := resolved } :
      Noted (Option Summary)).notices, Told notice :=
    Noted.forall_notices_bind (told_of_resolve [] ps) fun _ _ =>
      Noted.forall_notices_bind nofun fun _ _ => Noted.forall_notices_bind nofun fun _ _ =>
        Noted.forall_notices_bind nofun fun _ _ => Noted.forall_notices_bind nofun nofun
  have hnone : ∀ notice ∈ [Notice.noSamples], Told notice := by
    intro notice hnotice
    obtain rfl := List.mem_singleton.mp hnotice
    trivial
  dsimp only
  split
  · refine Noted.forall_notices_bind nofun fun notice hnotice => ?_
    rw [Noted.lift_outcome] at hnotice
    refine Noted.forall_notices_bind ?_ fun _ _ => ?_
    · intro _ h
      obtain rfl := List.mem_singleton.mp h
      obtain ⟨hshort, rfl⟩ := Notice.ofExcluded_eq_ok_iff.mp hnotice
      exact hshort
    · split
      · exact Noted.forall_notices_bind hnone nofun
      · exact hfigures
  · split
    · exact Noted.forall_notices_bind hnone nofun
    · exact hfigures

/-! ## The account -/

/-- **Every request is accounted for.** The entries are the first occurrences of
the requests that resolve, in their order; a notice is given of every occurrence
of one that does not, in their order and behind the notice of what was excluded;
and what is left are repeats of requests that resolved. Whatever else is asked
for, a summary that is returned is the same but for its percentiles, and has the
same answer to a request that is in both lists; and each request is answered alone,
in the same way. -/
theorem accounted_of_compute {result : Option Summary}
    (h : (compute visits ps exclude).outcome = .ok result)
    (hpopulated : 1 ≤ Bucket.total (retained exclude visits)) :
    let total := Bucket.total (retained exclude visits)
    ∃ s, result = some s ∧ Accounted total ps s
      ∧ (compute visits ps exclude).notices
        = noticeOfExcluded (excluded exclude visits) ++ ps.filterMap (notice? total)
      ∧ (∀ others result', (compute visits others exclude).outcome = .ok result' →
        ∃ t, result' = some t ∧ t.mean = s.mean ∧ t.stddev = s.stddev ∧ t.max = s.max
          ∧ ∀ p ∈ ps, p ∈ others →
            Table.get? Number.same p t.percentiles = Table.get? Number.same p s.percentiles)
      ∧ ∀ p ∈ ps, ∃ t, (compute visits [p] exclude).outcome = .ok (some t)
        ∧ Table.get? Number.same p t.percentiles = Table.get? Number.same p s.percentiles := by
  intro total
  obtain ⟨s, rfl, hs⟩ := exists_assembled h hpopulated
  have hpos : ∀ b ∈ retained exclude visits, 0 < b.2 := fun _ hb => count_pos_of_mem_retained hb
  refine ⟨s, rfl, hs.accounted hpos, ?_, ?_, ?_⟩
  · rw [notices_compute h, hs.notices_resolve hpos]
  · intro others result' hresult
    obtain ⟨t, rfl, ht⟩ := exists_assembled hresult hpopulated
    obtain ⟨t', ht', hsame⟩ := hs.exists_of_requests ht.isWritable
    have hequal := (ofRetained_eq_ok_some_iff.mpr ht').symm.trans (ofRetained_eq_ok_some_iff.mpr ht)
    obtain rfl := Option.some.inj (Except.ok.inj hequal)
    exact ⟨t', rfl, hsame⟩
  · intro p hp
    obtain ⟨hdecided, hnoticeable, -⟩ := compute_eq_ok_iff.mp h
    have hself : ∀ q ∈ [p], q.isWritable = true := by
      intro q hq
      obtain rfl := List.mem_singleton.mp hq
      exact hs.isWritable q hp
    obtain ⟨t, ht, -, -, -, hvalue⟩ := hs.exists_of_requests hself
    have hcompute : (compute visits [p] exclude).outcome = .ok (some t) :=
      compute_eq_ok_iff.mpr ⟨hdecided, hnoticeable, ofRetained_eq_ok_some_iff.mpr ht⟩
    exact ⟨t, hcompute, hvalue p hp (List.mem_singleton_self p)⟩

/-- One more sample than 2^52, and four that are excluded. Zero and one half
resolve, zero comes again as a binary64 number, and one is asked for twice. -/
theorem accounted_of_compute_mixed :
    let ps : List Number :=
      [.int 0, .float .half, .int 1, .float (.zero true), .float .nan, .int 1]
    let run := compute [(.float .nan, 4), (.int 7, 2 ^ 52 + 1)] ps .nonFinite
    ∃ s, run.outcome = .ok (some s)
      ∧ Table.keys s.percentiles = [.int 0, .float .half]
      ∧ run.notices = [.excluded 4, .unresolved (.int 1) (2 ^ 52 + 2), .dropped (.float .nan),
        .unresolved (.int 1) (2 ^ 52 + 2)]
      ∧ (repeats (2 ^ 52 + 1) ps).length = 1 := by
  intro ps run
  have hretained : retained .nonFinite [(.float .nan, 4), (.int 7, 2 ^ 52 + 1)]
      = [(.int 7, 2 ^ 52 + 1)] := by
    decide +kernel
  have hs : ∃ s, ofRetained [(.int 7, 2 ^ 52 + 1)] ps = .ok (some s) := by
    refine exists_summary ?_
    simp only [ofRetained, Arrangement.arrange_singleton]
    decide +kernel
  obtain ⟨s, hs⟩ := hs
  have hrun : run.outcome = .ok (some s) := by
    refine compute_eq_ok_iff.mpr ⟨?_, noticeable_of_lt (by decide +kernel), ?_⟩
    · intro b hb
      rcases List.mem_pair.mp hb with rfl | rfl
      · exact ⟨true, rfl⟩
      · exact ⟨false, by decide +kernel⟩
    · rw [hretained, hs]
  obtain ⟨t, ht, haccounted, hnotices, -⟩ :=
    accounted_of_compute hrun (by rw [hretained]; decide)
  obtain rfl := Option.some.inj ht
  rw [hretained] at haccounted hnotices
  refine ⟨s, hrun, haccounted.keys.trans ?_, hnotices.trans ?_, ?_⟩
  · decide +kernel
  · decide +kernel
  · decide +kernel

end Summary
end LoadReport
