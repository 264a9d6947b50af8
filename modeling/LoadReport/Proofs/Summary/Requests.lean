import LoadReport.Proofs.Summary.Outcome
import LoadReport.Proofs.Summary.Rank
import LoadReport.Proofs.Table.Keys

/-!
# Answering a list of requests

`resolve` answers one request after another, and what it answers depends on
what it has answered before: a fraction that is the same as one already
resolved is passed over. Here this dependence is taken apart.

- `keyOf` is the answer to a request on its own, if it has one: the fraction is
  in range, its rank can be computed, and some key is at that rank.
- Resolving enters these answers into a table, each under the first fraction
  of its value (`resolved_eq_foldl`); the rest is about such tables.
- It is given up only at a fraction whose rank cannot be computed, or at one
  that is to be dropped and has too many digits to be told
  (`exists_of_resolve_eq_error`). The latter always ends it, since no entry is the
  same as a fraction out of range (`isWritable_of_resolve`).

Since fractions that are the same have the same answer, it does not matter
which of them made the entry: what a table holds for a requested fraction is
that fraction's own answer (`get?_foldl_enter`). This needs the total to fit in
binary64, which the existence of a summary ensures (`Assembled.exists_fitInt`).
-/

namespace LoadReport

open Bucket

namespace Percentile

/-- The key of a fraction that is asked for on its own. -/
def keyOf (ascending : List Bucket) (total : Int) (p : Number) : Option Number :=
  if inRange p then
    match rank p total with
    | .ok r => keyAtRank r 0 ascending
    | .error _ => none
  else none

theorem isNan_of_inRange {p : Number} (h : inRange p = true) : p.isNan = false := by
  rw [inRange, Bool.and_eq_true] at h
  exact Number.isNan_of_le_right h.1

/-- A fraction in range can be told. -/
theorem isWritable_of_inRange {p : Number} (h : inRange p = true) : p.isWritable = true := by
  cases p with
  | float x => rfl
  | int n => rcases eq_zero_or_one_of_inRange h with rfl | rfl <;> decide +kernel

theorem inRange_congr {p q : Number} (h : p.same q = true) : inRange p = inRange q := by
  rw [inRange, inRange, Number.le_congr_left h, Number.le_congr_right h]

theorem keyOf_eq_some_iff {ascending : List Bucket} {total : Int} {p key : Number} :
    keyOf ascending total p = some key ↔
      inRange p = true ∧ ∃ r, rank p total = .ok r ∧ keyAtRank r 0 ascending = some key := by
  unfold keyOf
  cases inRange p with
  | false => simp
  | true => cases rank p total <;> simp

theorem keyOf_congr {ascending : List Bucket} {total : Int} {n : Binary64}
    (hfit : Binary64.fitInt total = .ok n) {p q : Number} (h : p.same q = true) :
    keyOf ascending total p = keyOf ascending total q := by
  unfold keyOf
  rw [← inRange_congr h]
  split
  · next hp => rw [rank_congr hfit h hp]
  · rfl

theorem keyOf_of_isNan {ascending : List Bucket} {total : Int} {p : Number}
    (h : p.isNan = true) : keyOf ascending total p = none := by
  cases hkey : keyOf ascending total p with
  | none => rfl
  | some key =>
      rw [isNan_of_inRange (keyOf_eq_some_iff.mp hkey).1] at h
      cases h

/-! ## Entering answers -/

/-- Enters the answer to a request, unless the request has none or is the
same as one that is entered. -/
def enter (value : Number → Option Number) (t : Table Number Number) (p : Number) :
    Table Number Number :=
  if Table.contains Number.same p t then t
  else match value p with
    | some key => t ++ [(p, key)]
    | none => t

variable {value : Number → Option Number}

theorem mem_enter {t : Table Number Number} {p : Number} {e : Number × Number}
    (h : e ∈ enter value t p) : e ∈ t ∨ (e.1 = p ∧ value p = some e.2) := by
  unfold enter at h
  split at h
  · exact Or.inl h
  · split at h
    · next key hkey =>
        rcases List.mem_append.mp h with h | h
        · exact Or.inl h
        · obtain rfl := List.mem_singleton.mp h
          exact Or.inr ⟨rfl, hkey⟩
    · exact Or.inl h

theorem mem_foldl_enter {ps : List Number} {t : Table Number Number} {e : Number × Number}
    (h : e ∈ ps.foldl (enter value) t) :
    e ∈ t ∨ (e.1 ∈ ps ∧ value e.1 = some e.2) := by
  induction ps generalizing t with
  | nil => exact Or.inl h
  | cons p ps ih =>
      rcases ih h with h | ⟨hmem, hkey⟩
      · rcases mem_enter h with h | ⟨hfst, hkey⟩
        · exact Or.inl h
        · rw [← hfst] at hkey
          exact Or.inr ⟨hfst ▸ List.mem_cons_self .., hkey⟩
      · exact Or.inr ⟨List.mem_cons_of_mem _ hmem, hkey⟩

theorem get?_append_singleton (p q key : Number) (t : Table Number Number) :
    Table.get? Number.same p (t ++ [(q, key)])
      = (Table.get? Number.same p t).or (if q.same p then some key else none) := by
  induction t with
  | nil => simp [Table.get?_cons, Table.get?_nil]
  | cons e t ih =>
      obtain ⟨k, v⟩ := e
      rw [List.cons_append, Table.get?_cons, Table.get?_cons, ih]
      split <;> rfl

theorem get?_congr {p q : Number} (h : q.same p = true) (t : Table Number Number) :
    Table.get? Number.same p t = Table.get? Number.same q t := by
  simp only [Table.get?, Number.same_congr_right h]

theorem get?_enter (hcongr : ∀ {p q : Number}, p.same q = true → value p = value q)
    (t : Table Number Number) (p q : Number) :
    Table.get? Number.same p (enter value t q)
      = (Table.get? Number.same p t).or (if q.same p then value p else none) := by
  unfold enter
  cases hsame : q.same p with
  | false =>
      split
      · simp
      · split
        · rw [get?_append_singleton, hsame]
          rfl
        · simp
  | true =>
      have hnan : q.isNan = false := Number.isNan_of_same_left hsame
      have hself : q.same q = true := Number.same_refl hnan
      rw [← hcongr hsame, get?_congr hsame, get?_congr hsame, Table.contains_eq_isSome]
      cases hold : Table.get? Number.same q t with
      | some key => simp [hold]
      | none =>
          cases hkey : value q with
          | some key => simp [get?_append_singleton, hold, hself]
          | none => simp [hold]

/-- What a table of answers holds for a request is its own answer. -/
theorem get?_foldl_enter (hcongr : ∀ {p q : Number}, p.same q = true → value p = value q)
    (ps : List Number) (t : Table Number Number) (p : Number) :
    Table.get? Number.same p (ps.foldl (enter value) t)
      = (Table.get? Number.same p t).or (if ps.any fun q => q.same p then value p else none) := by
  induction ps generalizing t with
  | nil => simp
  | cons q ps ih =>
      rw [List.foldl_cons, ih, get?_enter hcongr, List.any_cons, Option.or_assoc]
      congr 1
      cases q.same p <;> cases value p <;> simp

/-! ## Resolving -/

def Answer.entered (p : Number) (t : Table Number Number) : Answer → Table Number Number
  | key k => t ++ [(p, k)]
  | _ => t

theorem resolve_cons_eq_ok_iff {ascending : List Bucket} {total : Int}
    {t t' : Table Number Number} {p : Number} {ps : List Number} :
    (resolve ascending total t (p :: ps)).outcome = .ok t' ↔
      ∃ a, answer ascending total t p = .ok a
        ∧ (resolve ascending total (a.entered p t) ps).outcome = .ok t' := by
  rw [resolve, Noted.outcome_bind, Except.bind_eq_ok_iff, Noted.lift_outcome]
  refine exists_congr fun a => and_congr_right fun _ => ?_
  cases a <;> simp only [Noted.outcome_bind, Noted.note_outcome, Answer.entered] <;> rfl

theorem resolve_cons_eq_error_iff {ascending : List Bucket} {total : Int}
    {t : Table Number Number} {p : Number} {ps : List Number} {fault : Fault} :
    (resolve ascending total t (p :: ps)).outcome = .error fault ↔
      answer ascending total t p = .error fault
        ∨ ∃ a, answer ascending total t p = .ok a
          ∧ (resolve ascending total (a.entered p t) ps).outcome = .error fault := by
  rw [resolve, Noted.outcome_bind, Except.bind_eq_error_iff, Noted.lift_outcome]
  refine or_congr_right (exists_congr fun a => and_congr_right fun _ => ?_)
  cases a <;> simp only [Noted.outcome_bind, Noted.note_outcome, Answer.entered] <;> rfl

/-- Why a request is refused. -/
inductive Refused (total : Int) (p : Number) : Fault → Prop
  /-- The rank of a fraction in range cannot be computed. -/
  | unranked {fault : Fault} (hrange : inRange p = true) (h : rank p total = .error fault) :
      Refused total p fault
  /-- There is no notice of a fraction that is out of range. -/
  | unwritable (hrange : inRange p = false) (h : p.isWritable = false) :
      Refused total p .tooManyDigits

theorem refused_of_answer {ascending : List Bucket} {total : Int} {t : Table Number Number}
    {p : Number} {fault : Fault} (h : answer ascending total t p = .error fault) :
    Refused total p fault := by
  unfold answer at h
  split at h
  · cases h
  · cases hrange : inRange p with
    | false =>
        rw [hrange, Bool.not_false, if_pos rfl, Except.map_eq_error_iff,
          Notice.ofDropped_eq_error_iff] at h
        obtain ⟨hlong, rfl⟩ := h
        exact .unwritable hrange hlong
    | true =>
        rw [hrange] at h
        exact .unranked hrange (Except.map_eq_error_iff.mp h)

theorem exists_of_resolve_eq_error {ascending : List Bucket} {total : Int}
    {t : Table Number Number} {ps : List Number} {fault : Fault}
    (h : (resolve ascending total t ps).outcome = .error fault) :
    ∃ p ∈ ps, Refused total p fault := by
  induction ps generalizing t with
  | nil => cases h
  | cons p ps ih =>
      rcases resolve_cons_eq_error_iff.mp h with h | ⟨a, -, h⟩
      · exact ⟨p, List.mem_cons_self .., refused_of_answer h⟩
      · obtain ⟨q, hq, hfails⟩ := ih h
        exact ⟨q, List.mem_cons_of_mem _ hq, hfails⟩

theorem entered_of_answer {ascending : List Bucket} {total : Int} {t : Table Number Number}
    {p : Number} {a : Answer} (h : answer ascending total t p = .ok a) :
    a.entered p t = enter (keyOf ascending total) t p := by
  unfold answer at h
  unfold enter keyOf
  split at h
  · next hold =>
      obtain rfl := Except.ok.inj h
      rw [if_pos hold]
      rfl
  · next hnew =>
      rw [if_neg hnew]
      cases hrange : inRange p with
      | false =>
          rw [hrange] at h
          obtain ⟨notice, -, rfl⟩ := Except.map_eq_ok_iff.mp h
          rfl
      | true =>
          rw [hrange] at h
          cases hrank : rank p total with
          | error fault => rw [hrank] at h; cases h
          | ok r =>
              rw [hrank] at h
              obtain rfl := Except.ok.inj h
              simp only [if_true]
              cases keyAtRank r 0 ascending <;> rfl

/-- **Resolving enters answers.** -/
theorem resolved_eq_foldl {ascending : List Bucket} {total : Int} {ps : List Number}
    {t t' : Table Number Number} (h : (resolve ascending total t ps).outcome = .ok t') :
    t' = ps.foldl (enter (keyOf ascending total)) t := by
  induction ps generalizing t with
  | nil => exact (Except.ok.inj h).symm
  | cons p ps ih =>
      obtain ⟨a, ha, hrest⟩ := resolve_cons_eq_ok_iff.mp h
      rw [List.foldl_cons, ← entered_of_answer ha]
      exact ih hrest

theorem contains_foldl_enter {ps : List Number} {t : Table Number Number} {p : Number}
    (h : Table.contains Number.same p t = true) :
    Table.contains Number.same p (ps.foldl (enter value) t) = true := by
  induction ps generalizing t with
  | nil => exact h
  | cons q ps ih =>
      refine ih ?_
      unfold enter
      split
      · exact h
      · split
        · rw [Table.contains, List.any_append]
          exact Bool.or_eq_true_iff.mpr (Or.inl h)
        · exact h

/-- The rank of a requested fraction is computed, unless the fraction was
found before that. -/
theorem exists_rank_of_resolve {ascending : List Bucket} {total : Int} {ps : List Number}
    {t t' : Table Number Number} (h : (resolve ascending total t ps).outcome = .ok t')
    {p : Number} (hp : p ∈ ps) (hrange : inRange p = true) :
    Table.contains Number.same p t' = true ∨ ∃ r, rank p total = .ok r := by
  induction ps generalizing t with
  | nil => cases hp
  | cons q ps ih =>
      obtain ⟨a, ha, hrest⟩ := resolve_cons_eq_ok_iff.mp h
      rcases List.mem_cons.mp hp with rfl | hp
      · cases hold : Table.contains Number.same p t with
        | true =>
            rw [resolved_eq_foldl h]
            exact Or.inl (contains_foldl_enter hold)
        | false =>
            rw [answer, hold, hrange] at ha
            cases hrank : rank p total with
            | ok r => exact Or.inr ⟨r, rfl⟩
            | error fault => rw [hrank] at ha; cases ha
      · exact ih hrest hp

/-! ## Requests that cannot be told -/

section Writable

variable {ascending : List Bucket} {total : Int} {t t' : Table Number Number} {p : Number}
  {ps : List Number}

theorem inRange_of_mem_entered {a : Answer} (ht : ∀ e ∈ t, inRange e.1 = true)
    (h : answer ascending total t p = .ok a) : ∀ e ∈ a.entered p t, inRange e.1 = true := by
  intro e he
  rw [entered_of_answer h] at he
  rcases mem_enter he with he | ⟨rfl, hkey⟩
  · exact ht e he
  · exact (keyOf_eq_some_iff.mp hkey).1

theorem isWritable_of_answer {a : Answer} (ht : ∀ e ∈ t, inRange e.1 = true)
    (h : answer ascending total t p = .ok a) : p.isWritable = true := by
  cases hrange : inRange p with
  | true => exact isWritable_of_inRange hrange
  | false =>
      have hnew : Table.contains Number.same p t = false := by
        refine List.any_eq_false.mpr fun e he hsame => ?_
        rw [← inRange_congr hsame, ht e he] at hrange
        cases hrange
      rw [answer, hnew, hrange] at h
      obtain ⟨notice, hnotice, -⟩ := Except.map_eq_ok_iff.mp h
      exact (Notice.ofDropped_eq_ok_iff.mp hnotice).1

/-- Requests that are answered can be told. -/
theorem isWritable_of_resolve (ht : ∀ e ∈ t, inRange e.1 = true)
    (h : (resolve ascending total t ps).outcome = .ok t') : ∀ p ∈ ps, p.isWritable = true := by
  induction ps generalizing t with
  | nil => exact fun p hp => absurd hp List.not_mem_nil
  | cons q ps ih =>
      obtain ⟨a, ha, hrest⟩ := resolve_cons_eq_ok_iff.mp h
      rintro p (_ | ⟨_, hp⟩)
      · exact isWritable_of_answer ht ha
      · exact ih (inRange_of_mem_entered ht ha) hrest p hp

end Writable

end Percentile

/-! ## The requests behind a summary -/

namespace Summary

open Percentile

/-- A summary exists only if its total fits in binary64: the spread of three
or more samples is divided by it. -/
theorem Assembled.exists_fitInt {buckets : List Bucket} {ps : List Number} {s : Summary}
    (h : Assembled buckets ps s) : ∃ n, Binary64.fitInt (Bucket.total buckets) = .ok n := by
  have hpopulated := h.populated
  obtain ⟨deviations, -, hspread⟩ := h.spread
  generalize Bucket.total buckets = total at hpopulated hspread
  unfold spreadOf at hspread
  split at hspread
  · obtain ⟨sum, -, hspread⟩ := Except.bind_eq_ok_iff.mp hspread
    obtain ⟨variance, hvariance, -⟩ := Except.bind_eq_ok_iff.mp hspread
    obtain ⟨n, hn, -⟩ := Except.bind_eq_ok_iff.mp hvariance
    exact ⟨n, hn⟩
  · have hsmall : total = 1 ∨ total = 2 := by omega
    rcases hsmall with rfl | rfl
    · exact ⟨_, Binary64.fitInt_of_isFinite (by decide +kernel)⟩
    · exact ⟨_, Binary64.fitInt_of_isFinite (by decide +kernel)⟩

theorem Assembled.isWritable {buckets : List Bucket} {ps : List Number} {s : Summary}
    (h : Assembled buckets ps s) : ∀ p ∈ ps, p.isWritable = true :=
  isWritable_of_resolve (fun _ he => absurd he List.not_mem_nil) h.resolved

/-- What a summary holds for a requested fraction is that fraction's own
answer. -/
theorem Assembled.get?_percentiles {buckets : List Bucket} {ps : List Number} {s : Summary}
    (h : Assembled buckets ps s) {p : Number} (hp : p ∈ ps) :
    Table.get? Number.same p s.percentiles
      = keyOf (Arrangement.arrange buckets) (Bucket.total buckets) p := by
  obtain ⟨n, hfit⟩ := h.exists_fitInt
  rw [resolved_eq_foldl h.resolved, get?_foldl_enter (keyOf_congr hfit), Table.get?_nil,
    Option.none_or]
  cases hnan : p.isNan with
  | true =>
      rw [keyOf_of_isNan hnan]
      split <;> rfl
  | false =>
      have hself : p.same p = true := Number.same_refl hnan
      have hasked : (ps.any fun q => q.same p) = true := List.any_eq_true.mpr ⟨p, hp, hself⟩
      rw [hasked, if_pos rfl]

theorem Assembled.mem_percentiles {buckets : List Bucket} {ps : List Number} {s : Summary}
    (h : Assembled buckets ps s) {e : Number × Number} (he : e ∈ s.percentiles) :
    e.1 ∈ ps ∧ keyOf (Arrangement.arrange buckets) (Bucket.total buckets) e.1 = some e.2 := by
  rw [resolved_eq_foldl h.resolved] at he
  rcases mem_foldl_enter he with he | he
  · exact absurd he List.not_mem_nil
  · exact he

end Summary
end LoadReport
