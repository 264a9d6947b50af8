/-!
# Positions on the extended line

Whole numbers and binary64 numbers are compared by where they stand on one
line: a whole number of units, or one of the two ends. Comparing positions
never rounds, so a whole number of any size is compared with a binary64
number exactly.

The order is linear (`le_total`, `le_antisymm`, `le_trans`), and `lt` is
the negation of `le` the other way round.
-/

namespace LoadReport

/-- A point of the line in units, or one of its ends. -/
inductive Position
  | below
  | units (n : Int)
  | above
deriving DecidableEq, Repr

namespace Position

/-- The order of the line. -/
def le : Position → Position → Bool
  | below, _ => true
  | _, above => true
  | units m, units n => decide (m ≤ n)
  | _, _ => false

/-- The strict order of the line. -/
def lt (p q : Position) : Bool := !q.le p

theorem le_refl (p : Position) : p.le p = true := by
  cases p <;> simp [le]

theorem le_total (p q : Position) : p.le q = true ∨ q.le p = true := by
  cases p <;> cases q <;> simp [le]
  omega

theorem le_trans {p q r : Position} (hpq : p.le q = true) (hqr : q.le r = true) :
    p.le r = true := by
  cases p <;> cases q <;> cases r <;> simp_all [le]
  omega

theorem le_antisymm {p q : Position} (hpq : p.le q = true) (hqp : q.le p = true) : p = q := by
  cases p <;> cases q <;> simp_all [le]
  omega

theorem lt_iff {p q : Position} : p.lt q = true ↔ ¬ q.le p = true := by
  simp [lt]

end Position
end LoadReport
