import LoadReport.Proofs.Histogram.Entries

/-!
# One sequence for each content

A traversal passes the buckets of a table in one sequence that does not depend on
how the table was filled: first the numbers, strictly ascending, then the NaN keys
in the order in which they were entered (`InSequence`). A visitor is called on a
part of it that reaches up to its first `false` (`traverse_recorded`).

What that sequence is can be said of the calls alone, if no key is NaN and equal
keys have one form: it holds each key that was recorded, with its total
(`OneForm.mem_visits_iff`). So two runs of calls are traversed alike just if they record
the same keys with the same totals (`OneForm.visits_eq_iff`). Totals alone do not decide
it: a key that was recorded no times has a bucket, and one that was never recorded
has none, while the total of both is zero.
-/

namespace LoadReport

open Bucket

/-! ## Numbers first -/

/-- If nothing that passes a test follows what does not, the list is what passes
with the rest behind. -/
theorem List.filter_append_filter_not {α : Type} {p : α → Bool} {xs : List α}
    (h : xs.Pairwise fun a b => p b = true → p a = true) :
    xs.filter p ++ xs.filter (fun a => !p a) = xs := by
  induction xs with
  | nil => rfl
  | cons a xs ih =>
      obtain ⟨hfirst, hrest⟩ := List.pairwise_cons.mp h
      cases hp : p a with
      | true => simp [hp, ih hrest]
      | false =>
          have hnone : xs.filter p = [] := by
            refine List.filter_eq_nil_iff.mpr fun b hb hpb => ?_
            rw [hfirst b hb hpb] at hp
            cases hp
          have hall : xs.filter (fun a => !p a) = xs := by
            refine List.filter_eq_self.mpr fun b hb => ?_
            simpa using List.filter_eq_nil_iff.mp hnone b hb
          simp [hp, hnone, hall]

namespace Histogram

variable {h : Histogram}

/-- The sequence in which the buckets of a table are passed. -/
structure InSequence (h : Histogram) : Prop where
  perm : h.visits.Perm h.entries
  distinct : h.visits.Pairwise fun a b => a.1.same b.1 = false
  ascending : (h.visits.filter fun b => !b.1.isNan).Pairwise fun a b => a.1.lt b.1 = true
  nans_last : h.visits
    = (h.visits.filter fun b => !b.1.isNan) ++ h.entries.filter fun b => b.1.isNan

theorem Keyed.inSequence (hkeyed : h.Keyed) : h.InSequence := by
  have hvisits := visits_of_isTable hkeyed.isTable
  refine ⟨h.visits_perm, hkeyed.distinct_visits, ?_, ?_⟩
  · have hle : (h.visits.filter fun b => !b.1.isNan).Pairwise fun a b => a.1.le b.1 = true := by
      rw [hvisits, filter_visitOrder]
      refine pairwise_le_visitOrder fun b hb => ?_
      simpa using (List.mem_filter.mp hb).2
    refine (hle.and (hkeyed.distinct_visits.filter _)).imp fun ⟨hab, hdiff⟩ => ?_
    exact Number.lt_of_le_of_not_same hab hdiff
  · have hnans : h.visits.filter (fun b => b.1.isNan) = h.entries.filter fun b => b.1.isNan := by
      rw [hvisits, filter_isNan_visitOrder]
    have hfirst : h.visits.Pairwise fun a b => (!b.1.isNan) = true → (!a.1.isNan) = true := by
      rw [hvisits]
      refine (pairwise_visitOrder _).imp fun {a b} hab hb => ?_
      rw [Bool.not_eq_true'] at hb ⊢
      exact Number.isNan_of_le_left (Number.le_of_sortsBefore hb hab)
    have hsplit := List.filter_append_filter_not hfirst
    simp only [Bool.not_not] at hsplit
    rw [← hnans, hsplit]

/-! ## The calls of a visitor -/

section Visitor

variable {σ : Type}

/-- The answers of a visitor that is called on all buckets. -/
def answers (visitor : σ → Bucket → σ × Bool) : σ → List Bucket → List Bool
  | _, [] => []
  | state, b :: rest => (visitor state b).2 :: answers visitor (visitor state b).1 rest

/-- The buckets up to and including the first one on which a visitor answers
`false`. -/
def untilFalse (visitor : σ → Bucket → σ × Bool) (state : σ) (buckets : List Bucket) :
    List Bucket :=
  buckets.take (((answers visitor state buckets).takeWhile id).length + 1)

/-- A visitor that keeps the buckets that it is called on. -/
def recorded (visitor : σ → Bucket → σ × Bool) (s : σ × List Bucket) (b : Bucket) :
    (σ × List Bucket) × Bool :=
  (((visitor s.1 b).1, s.2 ++ [b]), (visitor s.1 b).2)

/-- A visitor is called on the buckets until it answers `false`, whatever it was
called on before. -/
theorem traverse_recorded (visitor : σ → Bucket → σ × Bool) (state : σ)
    (before buckets : List Bucket) :
    traverse (recorded visitor) (state, before) buckets
      = (traverse visitor state buckets, before ++ untilFalse visitor state buckets) := by
  induction buckets generalizing state before with
  | nil => simp [traverse, untilFalse]
  | cons b rest ih =>
      have hnext := ih (visitor state b).1 (before ++ [b])
      unfold untilFalse at hnext ⊢
      cases hanswer : visitor state b with
      | mk next goesOn =>
          rw [hanswer] at hnext
          cases goesOn with
          | true =>
              simp only [traverse, recorded, answers, hanswer] at hnext ⊢
              simp [hnext]
          | false => simp [traverse, recorded, answers, hanswer]

end Visitor
end Histogram

/-! ## What calls amount to -/

namespace Recorder

variable {calls calls' : List Bucket}

theorem visits_perm_counted (r : Recorder) : r.visits.Perm (counted r.buckets) :=
  visitOrder_perm _

theorem countWhere_visits (calls : List Bucket) (key : Number) :
    countWhere (fun k => k.same key) (ofCalls calls).visits
      = countWhere (fun k => k.same key) (accepted calls) := by
  rw [countWhere_perm (visits_perm_counted _), countWhere_eq_weigh, countWhere_eq_weigh]
  exact (tracks_ofCalls calls).weigh_eq _ (byValue_same key)

theorem any_visits (calls : List Bucket) (key : Number) :
    (ofCalls calls).visits.any (fun b => b.1.same key)
      = (accepted calls).any fun call => call.1.same key := by
  rw [(visits_perm_counted _).any_eq, ← (tracks_ofCalls calls).present key, counted, List.any_map]
  rfl

/-- Calls without NaN, and with one form for each number. -/
structure OneForm (calls : List Bucket) : Prop where
  number : ∀ call ∈ calls, call.1.isNan = false
  eq_of_same : ∀ a ∈ calls, ∀ b ∈ calls, a.1.same b.1 = true → a.1 = b.1

/-- Both runs record the same keys, be it no times. -/
def SameKeys (calls calls' : List Bucket) : Prop :=
  ∀ key, ((accepted calls).any fun call => call.1.same key)
    = (accepted calls').any fun call => call.1.same key

/-- Both runs give each key the same total. -/
def SameTotals (calls calls' : List Bucket) : Prop :=
  ∀ key, countWhere (fun k => k.same key) (accepted calls)
    = countWhere (fun k => k.same key) (accepted calls')

theorem OneForm.isNan_of_mem_visits (hform : OneForm (accepted calls)) {b : Bucket}
    (hb : b ∈ (ofCalls calls).visits) : b.1.isNan = false := by
  cases hnan : b.1.isNan with
  | false => rfl
  | true =>
      have hmem : b ∈ (ofCalls calls).visits.filter fun b => b.1.isNan :=
        List.mem_filter.mpr ⟨hb, hnan⟩
      rw [(tracks_ofCalls calls).records.nan_buckets] at hmem
      have hcall := hform.number b (List.mem_filter.mp hmem).1
      rwa [hnan] at hcall

/-- What is passed is a key as it was recorded, with the total of all that were
recorded under it. -/
theorem OneForm.of_mem_visits (hform : OneForm (accepted calls)) {b : Bucket}
    (hb : b ∈ (ofCalls calls).visits) :
    (∃ call ∈ accepted calls, call.1 = b.1)
      ∧ b.2 = countWhere (fun k => k.same b.1) (accepted calls) := by
  have hrecords := (tracks_ofCalls calls).records
  have hnumber := hform.isNan_of_mem_visits hb
  obtain ⟨call, hfound, hkey⟩ := Option.map_eq_some_iff.mp (hrecords.first_key b hb hnumber)
  refine ⟨⟨call, List.mem_of_find?_eq_some hfound, hkey⟩, ?_⟩
  rw [hrecords.count_eq b hb hnumber, hrecords.get_eq b.1 hnumber]

theorem OneForm.nodup_visits (hform : OneForm (accepted calls)) : (ofCalls calls).visits.Nodup := by
  refine (tracks_ofCalls calls).records.distinct.imp_of_mem fun ha _ hdiff heq => ?_
  rw [← heq, Number.same_refl (hform.isNan_of_mem_visits ha)] at hdiff
  cases hdiff

theorem OneForm.mem_visits_iff (hform : OneForm (accepted calls)) {b : Bucket} :
    b ∈ (ofCalls calls).visits ↔
      (∃ call ∈ accepted calls, call.1 = b.1)
        ∧ b.2 = countWhere (fun k => k.same b.1) (accepted calls) := by
  refine ⟨hform.of_mem_visits, ?_⟩
  rintro ⟨⟨call, hcall, hkey⟩, hcount⟩
  obtain ⟨b', hb', hsame⟩ :=
    (tracks_ofCalls calls).records.present call hcall (hform.number call hcall)
  obtain ⟨⟨first, hfirst, hfirstKey⟩, hcount'⟩ := hform.of_mem_visits hb'
  have hkeys : b'.1 = b.1 := by
    rw [← hfirstKey] at hsame
    rw [← hfirstKey, ← hkey, hform.eq_of_same first hfirst call hcall hsame]
  have heq : b' = b := Prod.ext hkeys (by rw [hcount', hcount, hkeys])
  rwa [← heq]

theorem OneForm.left (h : OneForm (calls ++ calls')) : OneForm calls where
  number call hcall := h.number call (List.mem_append_left _ hcall)
  eq_of_same a ha b hb :=
    h.eq_of_same a (List.mem_append_left _ ha) b (List.mem_append_left _ hb)

theorem OneForm.symm (h : OneForm (calls ++ calls')) : OneForm (calls' ++ calls) where
  number call hcall := h.number call (List.perm_append_comm.subset hcall)
  eq_of_same a ha b hb :=
    h.eq_of_same a (List.perm_append_comm.subset ha) b (List.perm_append_comm.subset hb)

theorem OneForm.mem_visits_of_same (hform : OneForm (accepted calls ++ accepted calls'))
    (hkeys : SameKeys calls calls') (htotals : SameTotals calls calls') {b : Bucket}
    (hb : b ∈ (ofCalls calls).visits) : b ∈ (ofCalls calls').visits := by
  obtain ⟨⟨call, hcall, hkey⟩, hcount⟩ := hform.left.of_mem_visits hb
  have hself : call.1.same call.1 = true := Number.same_refl (hform.left.number call hcall)
  have hheld : ((accepted calls').any fun call' => call'.1.same call.1) = true := by
    rw [← hkeys call.1]
    exact List.any_eq_true.mpr ⟨call, hcall, hself⟩
  obtain ⟨call', hcall', hsame⟩ := List.any_eq_true.mp hheld
  have hform' : call'.1 = call.1 :=
    hform.eq_of_same call' (List.mem_append_right _ hcall') call (List.mem_append_left _ hcall)
      hsame
  refine hform.symm.left.mem_visits_iff.mpr ⟨⟨call', hcall', hform'.trans hkey⟩, ?_⟩
  rw [hcount, htotals b.1]

/-- **Runs are traversed alike just if they record the same keys with the same
totals.** -/
theorem OneForm.visits_eq_iff (hform : OneForm (accepted calls ++ accepted calls')) :
    (ofCalls calls).visits = (ofCalls calls').visits ↔
      SameKeys calls calls' ∧ SameTotals calls calls' := by
  constructor
  · intro heq
    refine ⟨fun key => ?_, fun key => ?_⟩
    · rw [← any_visits, ← any_visits, heq]
    · rw [← countWhere_visits, ← countWhere_visits, heq]
  · rintro ⟨hkeys, htotals⟩
    have hperm : (ofCalls calls).visits.Perm (ofCalls calls').visits := by
      refine (List.perm_ext_iff_of_nodup hform.left.nodup_visits hform.symm.left.nodup_visits).mpr
        fun b => ⟨hform.mem_visits_of_same hkeys htotals, ?_⟩
      exact hform.symm.mem_visits_of_same (fun key => (hkeys key).symm) fun key =>
        (htotals key).symm
    have hsame : Histogram.SameEntries (.live (ofCalls calls)) (.live (ofCalls calls')) := by
      refine ⟨Histogram.keyed_ofCalls calls, rfl, ?_⟩
      exact (Histogram.visits_perm (.live (ofCalls calls))).symm.trans
        (hperm.trans (Histogram.visits_perm (.live (ofCalls calls'))))
    refine hsame.visits_eq fun b hb => hform.left.isNan_of_mem_visits ?_
    exact (Histogram.visits_perm _).symm.subset hb

/-- Where every accepted call records its key at least once, a key was recorded just
if its total is positive. -/
theorem countWhere_accepted_pos_iff (hne : ∀ call ∈ accepted calls, call.2 ≠ 0) (key : Number) :
    0 < countWhere (fun k => k.same key) (accepted calls) ↔
      ((accepted calls).any fun call => call.1.same key) = true := by
  refine countWhere_pos_iff fun call hcall => ?_
  have hnonneg : 0 ≤ call.2 := by simpa using (List.mem_filter.mp hcall).2
  have hcount := hne call hcall
  omega

theorem SameTotals.sameKeys (h : SameTotals calls calls')
    (hne : ∀ call ∈ accepted calls ++ accepted calls', call.2 ≠ 0) : SameKeys calls calls' := by
  intro key
  have hne' : ∀ call ∈ accepted calls', call.2 ≠ 0 := fun call hcall =>
    hne call (List.mem_append_right _ hcall)
  rw [Bool.eq_iff_iff, ← countWhere_accepted_pos_iff hne' key, ← h key]
  exact (countWhere_accepted_pos_iff (fun call hcall => hne call (List.mem_append_left _ hcall))
    key).symm

/-- **Every content has one sequence.** Whatever was recorded, and whatever a table
was made of, a traversal passes each bucket once, the numbers strictly ascending and
the NaN keys behind them as they were entered; it calls every visitor, whatever it
remembers, on just the buckets up to its first `false`. Runs that record no NaN and
one form of each number are traversed alike just if they record the same keys with
the same totals. If every accepted call records its key at least once, the same
totals suffice. -/
theorem inSequence_of_calls (calls calls' counts : List Bucket) :
    Histogram.InSequence (.live (ofCalls calls))
      ∧ Histogram.InSequence (.frozen (.ofPairs counts))
      ∧ (∀ (σ : Type) (visitor : σ → Bucket → σ × Bool) (state : σ) (h : Histogram),
        Histogram.traverse (Histogram.recorded visitor) (state, []) h.visits
          = (Histogram.traverse visitor state h.visits,
            Histogram.untilFalse visitor state h.visits))
      ∧ (OneForm (accepted calls ++ accepted calls') →
        ((ofCalls calls).visits = (ofCalls calls').visits ↔
          SameKeys calls calls' ∧ SameTotals calls calls')
        ∧ ((∀ call ∈ accepted calls ++ accepted calls', call.2 ≠ 0) →
          SameTotals calls calls' → (ofCalls calls).visits = (ofCalls calls').visits)) := by
  refine ⟨(Histogram.keyed_ofCalls calls).inSequence, (Histogram.keyed_ofPairs counts).inSequence,
    fun σ visitor state h => Histogram.traverse_recorded visitor state [] h.visits,
    fun hform => ⟨hform.visits_eq_iff, fun hne htotals => ?_⟩⟩
  exact hform.visits_eq_iff.mpr ⟨htotals.sameKeys hne, htotals⟩

/-- A key that was recorded no times is passed, though its total is that of a key
that was not recorded. -/
theorem visits_ne_of_sameTotals :
    OneForm (accepted [(.int 1, 0)] ++ accepted []) ∧ SameTotals [(.int 1, 0)] []
      ∧ (ofCalls [(.int 1, 0)]).visits ≠ (ofCalls []).visits := by
  refine ⟨⟨by decide +kernel, by decide +kernel⟩, fun key => ?_, fun heq => ?_⟩
  · cases hsame : (Number.int 1).same key <;> simp [countWhere, accepted, hsame]
  · have hkeys : SameKeys [(.int 1, 0)] [] := fun key => by
      rw [← any_visits, ← any_visits, heq]
    exact absurd (hkeys (.int 1)) (by decide +kernel)

/-- The same content in another order, with a call in between that is refused. -/
theorem inSequence_of_calls_swapped :
    let calls : List Bucket := [(.int 2, 1), (.float .half, 3), (.int 2, 1)]
    let calls' : List Bucket := [(.float .half, 3), (.int 2, -1), (.int 2, 2)]
    (ofCalls calls).visits = (ofCalls calls').visits := by
  intro calls calls'
  have htotals : SameTotals calls calls' := by
    intro key
    have haccepted : accepted calls = [(.int 2, 1), (.float .half, 3), (.int 2, 1)] := rfl
    have haccepted' : accepted calls' = [(.float .half, 3), (.int 2, 2)] := rfl
    rw [haccepted, haccepted']
    cases htwo : (Number.int 2).same key <;>
      cases hhalf : (Number.float .half).same key <;> simp [countWhere, htwo, hhalf]
  obtain ⟨-, -, -, hruns⟩ := inSequence_of_calls calls calls' []
  exact (hruns ⟨by decide +kernel, by decide +kernel⟩).2 (by decide) htotals

end Recorder
end LoadReport
