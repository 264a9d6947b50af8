import Mathlib.Algebra.BigOperators.Group.List.Basic
import Mathlib.Algebra.Group.Int.Defs
import LoadReport.Proofs.Table.Keys
import LoadReport.Results

/-!
# A tally accounts for every response

A tally is filed line by line, and seven counters move meanwhile. Each of them
is the sum of the counts of some codes: `Counts.ofCodes` is the induction over
the lines, for any reading of a tally that grows by the amount of a line just
if the code passes a test (`Counts`). The class counters are six such readings, the bad
gateway counter is one, and the sum of the six is another, which every line
passes. So nothing has to be said twice, and that the classes add up to the
table does not rest on the six sums being taken apart correctly.

Which codes a class stands for is said by two bounds (`StatusClass.Covers`), and
not by the cascade of comparisons that finds the class.
-/

namespace LoadReport

/-! ## The codes of a class -/

namespace StatusClass

def Covers : StatusClass → Int → Prop
  | informational, code => 100 ≤ code ∧ code ≤ 199
  | success, code => 200 ≤ code ∧ code ≤ 299
  | redirection, code => 300 ≤ code ∧ code ≤ 399
  | clientError, code => 400 ≤ code ∧ code ≤ 499
  | serverError, code => 500 ≤ code ∧ code ≤ 599
  | others, code => ¬ (100 ≤ code ∧ code ≤ 599)

instance (c : StatusClass) (code : Int) : Decidable (c.Covers code) := by
  cases c <;> unfold Covers <;> infer_instance

theorem ofCode_eq_iff {code : Int} {c : StatusClass} : ofCode code = c ↔ c.Covers code := by
  unfold ofCode
  cases c <;> simp only [Covers] <;> grind

end StatusClass

namespace Tally

def amountWhere (test : Int → Bool) (codes : Table Int Int) : Int :=
  ((codes.filter fun line => test line.1).map (·.2)).sum

variable {test test' : Int → Bool} {codes codes' : Table Int Int}

theorem amountWhere_cons (test : Int → Bool) (code amount : Int) (codes : Table Int Int) :
    amountWhere test ((code, amount) :: codes)
      = (if test code then amount else 0) + amountWhere test codes := by
  unfold amountWhere
  cases h : test code <;> simp [h]

theorem amountWhere_perm (h : codes.Perm codes') :
    amountWhere test codes = amountWhere test codes' :=
  ((h.filter _).map _).sum_eq

theorem amountWhere_le (himp : ∀ code, test code = true → test' code = true)
    (hnonneg : ∀ line ∈ codes, 0 ≤ line.2) :
    amountWhere test codes ≤ amountWhere test' codes := by
  induction codes with
  | nil => exact Int.le_refl 0
  | cons line codes ih =>
      obtain ⟨code, amount⟩ := line
      have hamount : 0 ≤ amount := hnonneg _ List.mem_cons_self
      have hrest := ih fun line hline => hnonneg line (List.mem_cons_of_mem _ hline)
      rw [amountWhere_cons, amountWhere_cons]
      have hhead : (if test code then amount else 0) ≤ if test' code then amount else 0 := by
        cases htest : test code with
        | false => cases test' code <;> simp [hamount]
        | true => simp [himp code htest]
      omega

theorem amountWhere_code (h : Table.Distinct (· == ·) codes) (code : Int) :
    amountWhere (· == code) codes = (Table.get? (· == ·) code codes).getD 0 := by
  have hheld : ((codes.filter fun line => line.1 == code).map (·.2))
      = (Table.get? (· == ·) code codes).toList := by
    refine Table.filter_same_of_distinct ?_ ?_ h code
    · exact BEq.symm
    · exact BEq.trans
  rw [amountWhere, hheld]
  cases Table.get? (· == ·) code codes <;> simp

/-! ## Filing the lines -/

/-- A reading of a tally that a line raises by its amount if its code passes a
test, and otherwise leaves alone. -/
structure Counts (counter : Tally → Int) (test : Int → Bool) : Prop where
  empty : counter {} = 0
  file : ∀ t code amount,
    counter (t.file code amount) = counter t + if test code then amount else 0

theorem Counts.foldl_file {counter : Tally → Int} (h : Counts counter test)
    (codes : Table Int Int) (t : Tally) :
    counter (codes.foldl (fun t line => t.file line.1 line.2) t)
      = counter t + amountWhere test codes := by
  induction codes generalizing t with
  | nil => exact (Int.add_zero _).symm
  | cons line codes ih => rw [List.foldl_cons, ih, h.file, amountWhere_cons, Int.add_assoc]

/-- **What the counters have in common.** After all lines each of them is the
amount of the codes that it counts. -/
theorem Counts.ofCodes {counter : Tally → Int} (h : Counts counter test)
    (codes : Table Int Int) : counter (ofCodes codes) = amountWhere test codes := by
  rw [Tally.ofCodes, h.foldl_file, h.empty, Int.zero_add]

theorem counts_count (c : StatusClass) :
    Counts (fun t => t.count c) fun code => decide (c.Covers code) where
  empty := by cases c <;> rfl
  file t code amount := by simp only [count_file, StatusClass.ofCode_eq_iff, decide_eq_true_eq]

theorem counts_badGateway : Counts Tally.badGateway (· == LoadReport.badGateway) where
  empty := rfl
  file t code amount := by simp only [badGateway_file, beq_iff_eq]

def classed (t : Tally) : Int := (t.byClass.map (·.2)).sum

/-- A line is filed under one class and no other. -/
theorem counts_classed : Counts classed fun _ => true where
  empty := rfl
  file t code amount := by
    simp only [classed, byClass, StatusClass.all, List.map_cons, List.map_nil, List.sum_cons,
      List.sum_nil, count_file]
    cases StatusClass.ofCode code <;> simp <;> omega

theorem classed_ofCodes (codes : Table Int Int) :
    (ofCodes codes).classed = (codes.map (·.2)).sum := by
  rw [counts_classed.ofCodes, amountWhere, List.filter_true]

/-! ## The tally of a table -/

theorem eq_of_counters {t t' : Tally} (hcount : ∀ c, t.count c = t'.count c)
    (hbad : t.badGateway = t'.badGateway) : t = t' := by
  obtain ⟨⟩ := t
  obtain ⟨⟩ := t'
  simp only [mk.injEq]
  exact ⟨hcount .informational, hcount .success, hcount .redirection, hcount .clientError,
    hcount .serverError, hbad, hcount .others⟩

theorem ofCodes_perm (h : codes.Perm codes') : ofCodes codes = ofCodes codes' := by
  refine eq_of_counters (fun c => ?_) ?_
  · rw [(counts_count c).ofCodes, (counts_count c).ofCodes, amountWhere_perm h]
  · rw [counts_badGateway.ofCodes, counts_badGateway.ofCodes, amountWhere_perm h]

theorem covers_of_badGateway {code : Int} (h : (code == LoadReport.badGateway) = true) :
    decide (StatusClass.serverError.Covers code) = true := by
  rw [eq_of_beq h]
  decide

/-- **A tally accounts for every response.** Each class holds what the table
holds under its codes, the bad gateway counter what it holds under that code,
and the classes that a report lists add up to the table. The order of the lines
does not show, and if no count is negative there are no more bad gateway
responses than server errors. -/
theorem ofCodes_accounts (h : Table.Distinct (· == ·) codes) :
    (∀ c, (ofCodes codes).count c = amountWhere (fun code => decide (c.Covers code)) codes)
      ∧ (ofCodes codes).badGateway
        = (Table.get? (· == ·) LoadReport.badGateway codes).getD 0
      ∧ (({ tally := ofCodes codes } : Results).tally.byClass.map (·.2)).sum
        = (codes.map (·.2)).sum
      ∧ (∀ codes', codes.Perm codes' → ofCodes codes' = ofCodes codes)
      ∧ ((∀ line ∈ codes, 0 ≤ line.2) →
        (ofCodes codes).badGateway ≤ (ofCodes codes).count .serverError) := by
  refine ⟨fun c => (counts_count c).ofCodes codes, ?_, classed_ofCodes codes,
    fun codes' hperm => (ofCodes_perm hperm).symm, fun hnonneg => ?_⟩
  · rw [counts_badGateway.ofCodes, amountWhere_code h]
  · rw [counts_badGateway.ofCodes, (counts_count _).ofCodes]
    exact amountWhere_le (fun _ => covers_of_badGateway) hnonneg

/-- Codes at both ends of the classes, and a failure without a code. -/
theorem ofCodes_accounts_ends :
    let codes : Table Int Int := [(599, 1), (502, 4), (600, 2), (0, 3), (99, 5), (100, 7)]
    (ofCodes codes).count .serverError = 5 ∧ (ofCodes codes).count .others = 10
      ∧ (ofCodes codes).badGateway = 4
      ∧ (({ tally := ofCodes codes } : Results).tally.byClass.map (·.2)).sum = 22
      ∧ ofCodes codes.reverse = ofCodes codes
      ∧ (ofCodes codes).badGateway ≤ (ofCodes codes).count .serverError := by
  intro codes
  obtain ⟨hcount, hbad, hsum, hperm, hle⟩ := ofCodes_accounts
    (show Table.Distinct (· == ·) codes by simp [codes, Table.Distinct, Table.keys])
  refine ⟨?_, ?_, ?_, ?_, hperm _ (List.reverse_perm _).symm, hle (by decide)⟩
  · rw [hcount]
    decide
  · rw [hcount]
    decide
  · rw [hbad]
    decide
  · rw [hsum]
    decide

end Tally
end LoadReport
