import LoadReport.Proofs.Number.Text
import LoadReport.Proofs.Summary.Accounting

/-!
# Percentiles under their texts

When a summary is written out, each entry of its percentiles goes under the text
of its fraction. Two entries under one text would become one, so that none is
lost takes two facts of different kinds.

- **No two fractions are alike.** A fraction that is the same by value as one that
  is there already makes no entry (`distinct_foldl_enter`), whatever kind and
  sign it comes in. As NaN is never in range, different by value is different.
- **No two numbers have one text**, as a number reads back from its text
  (`Number.text_injective`).
-/

namespace LoadReport

open Percentile

namespace Percentile

variable {value : Number → Option Number}

/-- A fraction that is entered is not the same as one that is there. -/
theorem distinct_enter {t : Table Number Number} (h : Table.Distinct Number.same t) (p : Number) :
    Table.Distinct Number.same (enter value t p) := by
  unfold enter
  split
  · exact h
  · next hnew =>
      split
      · next key _ =>
          have hupdate := Table.update_of_not_contains (fun _ => key) (Bool.not_eq_true _ ▸ hnew)
          rw [← hupdate]
          exact Table.distinct_update h
      · exact h

theorem distinct_foldl_enter {ps : List Number} {t : Table Number Number}
    (h : Table.Distinct Number.same t) : Table.Distinct Number.same (ps.foldl (enter value) t) := by
  induction ps generalizing t with
  | nil => exact h
  | cons p ps ih => exact ih (distinct_enter h p)

theorem isFinite_of_inRange {x : Binary64} (h : inRange (.float x) = true) :
    x.isFinite = true := by
  obtain ⟨m, -, hposition⟩ := exists_fraction h
  exact Binary64.isFinite_of_units? (Binary64.units?_of_position? hposition)

end Percentile

namespace Summary

variable {s : Summary}

section Assembled

variable {buckets : List Bucket} {ps : List Number}

theorem Assembled.inRange_of_mem (h : Assembled buckets ps s) {p : Number}
    (hp : p ∈ Table.keys s.percentiles) : inRange p = true := by
  obtain ⟨key, he⟩ := Table.mem_keys.mp hp
  exact (keyOf_eq_some_iff.mp (h.mem_percentiles he).2).1

theorem Assembled.nodup_percentiles (h : Assembled buckets ps s) :
    (Table.keys s.percentiles).Nodup := by
  have hdistinct : Table.Distinct Number.same s.percentiles := by
    rw [resolved_eq_foldl h.resolved]
    exact distinct_foldl_enter List.Pairwise.nil
  refine List.Pairwise.imp_of_mem ?_ hdistinct
  rintro p q hp - hdifferent rfl
  rw [Number.same_refl (isNan_of_inRange (h.inRange_of_mem hp))] at hdifferent
  cases hdifferent

end Assembled

/-! ## Writing out -/

/-- Percentiles as they are to be written out: an entry for each entry, under the
text of its fraction and in the same order, and no two under one text. From its
text a fraction reads back, and a binary64 fraction is written in the shortest
digits that do. -/
structure WritesPercentiles (s : Summary) : Prop where
  entries : s.percentileTexts = s.percentiles.map fun e => (e.1.text, e.2)
  nodup : (Table.keys s.percentileTexts).Nodup
  read_back : ∀ p ∈ Table.keys s.percentiles, Number.read? p.text.toList = some p
  shortest : ∀ x, Number.float x ∈ Table.keys s.percentiles → ∃ negative digits point,
    x.write = (if negative then ['-'] else []) ++ Binary64.layout.write digits point
      ∧ Binary64.ShortestDigits x negative digits point

theorem keys_map_text (t : Table Number Number) :
    Table.keys (t.map fun e => (e.1.text, e.2)) = (Table.keys t).map Number.text := by
  rw [Table.keys, Table.keys, List.map_map, List.map_map]
  rfl

theorem nodup_map_text {ps : List Number} (h : ps.Nodup) : (ps.map Number.text).Nodup :=
  List.Pairwise.map Number.text (fun _ _ hne htext => hne (Number.text_injective htext)) h

/-- Entries that go under different texts are all kept. -/
theorem percentileTexts_eq (h : (Table.keys s.percentiles).Nodup) :
    s.percentileTexts = s.percentiles.map fun e => (e.1.text, e.2) := by
  refine Table.ofPairs_of_distinct ?_
  rw [Table.Distinct, keys_map_text]
  exact (nodup_map_text h).imp fun hne => beq_eq_false_iff_ne.mpr hne

theorem Assembled.writesPercentiles {buckets : List Bucket} {ps : List Number}
    (h : Assembled buckets ps s) : WritesPercentiles s := by
  have hentries := percentileTexts_eq h.nodup_percentiles
  refine ⟨hentries, ?_, fun p _ => p.read?_text, fun x hx => ?_⟩
  · rw [hentries, keys_map_text]
    exact nodup_map_text h.nodup_percentiles
  · exact Binary64.exists_write_eq (isFinite_of_inRange (h.inRange_of_mem hx))

/-- **Writing out loses no percentile.** -/
theorem writesPercentiles_of_compute {visits : List Bucket} {ps : List Number}
    {exclude : Exclusion} (h : (compute visits ps exclude).outcome = .ok (some s)) :
    WritesPercentiles s := by
  obtain ⟨-, -, hrest⟩ := compute_eq_ok_iff.mp h
  exact (ofRetained_eq_ok_some_iff.mp hrest).writesPercentiles

/-- Zero as a whole number and with a minus sign, the smallest positive number,
one half, and one in both kinds. -/
theorem writesPercentiles_of_compute_mixed :
    let ps : List Number := [.int 0, .float (.zero true), .float (.ofUnitQuotient false 1 1),
      .float .half, .float (.ofInt 1), .int 1]
    ∃ s, (compute [(.int 7, 3)] ps .nothing).outcome = .ok (some s)
      ∧ Table.keys s.percentileTexts = ["0", "5e-324", "0.5", "1.0"] := by
  intro ps
  have hs : ∃ s, ofRetained [(.int 7, 3)] ps = .ok (some s)
      ∧ decide (Table.keys s.percentiles = [.int 0, .float (.ofUnitQuotient false 1 1),
        .float .half, .float (.ofInt 1)]) = true := by
    refine exists_summary_of ?_
    simp only [ofRetained, Arrangement.arrange_singleton]
    decide +kernel
  obtain ⟨s, hs, hkeys⟩ := hs
  rw [← outcome_nothing (by decide)] at hs
  have hwrites := writesPercentiles_of_compute hs
  refine ⟨s, hs, ?_⟩
  rw [hwrites.entries, keys_map_text, of_decide_eq_true hkeys]
  decide +kernel

end Summary
end LoadReport
