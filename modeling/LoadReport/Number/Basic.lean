import LoadReport.Binary64.Basic

/-!
# Numbers of two kinds

Keys, fractions and settings are either whole numbers of any size or
binary64 numbers, and the kind of a number is kept through everything that
is done with it.

**Equality by value.** `same` compares values across the two kinds, exactly
and without rounding: the whole number 1 is the same as the binary64 number
1.0, and the two zeros are the same. NaN is the same as nothing, itself
included. Equality of data (`=`) tells all these apart, and makes NaN equal
to itself.

**Order by value.** `lt` and `le` compare positions on the extended line;
both are false as soon as a NaN is involved. `sortsBefore` is the order in
which keys are listed, where NaN comes after everything else.
-/

namespace LoadReport

/-- A whole number or a binary64 number. -/
inductive Number
  | int (n : Int)
  | float (x : Binary64)
deriving DecidableEq

namespace Number

/-- Where the number stands; NaN stands nowhere. -/
def position? : Number → Option Position
  | int n => some (.units (n * unitsPerOne))
  | float x => x.position?

def isNan : Number → Bool
  | int _ => false
  | float x => x.isNan

def isInt : Number → Bool
  | int _ => true
  | float _ => false

/-- Equality by value. -/
def same (a b : Number) : Bool :=
  match a.position?, b.position? with
  | some p, some q => p == q
  | _, _ => false

/-- At most, by value. -/
def le (a b : Number) : Bool :=
  match a.position?, b.position? with
  | some p, some q => p.le q
  | _, _ => false

def lt (a b : Number) : Bool :=
  match a.position?, b.position? with
  | some p, some q => p.lt q
  | _, _ => false

/-- The order in which keys are listed: ascending, NaN last. -/
def sortsBefore (a b : Number) : Bool :=
  match a.position?, b.position? with
  | _, none => true
  | none, some _ => false
  | some p, some q => p.le q

/-! ## Laws of the comparisons -/

theorem position?_isSome (a : Number) : a.position?.isSome = !a.isNan := by
  cases a with
  | int n => rfl
  | float x => exact x.position?_isSome

theorem same_comm (a b : Number) : a.same b = b.same a := by
  unfold same
  cases a.position? <;> cases b.position? <;> simp [Bool.beq_comm]

theorem same_self (a : Number) : a.same a = !a.isNan := by
  rw [← position?_isSome]
  unfold same
  cases a.position? <;> simp

theorem same_trans {a b c : Number} (hab : a.same b = true) (hbc : b.same c = true) :
    a.same c = true := by
  unfold same at *
  cases ha : a.position? <;> cases hb : b.position? <;> cases hc : c.position? <;> simp_all

theorem sortsBefore_total (a b : Number) : (a.sortsBefore b || b.sortsBefore a) = true := by
  unfold sortsBefore
  cases a.position? with
  | none => cases b.position? <;> rfl
  | some p =>
      cases b.position? with
      | none => rfl
      | some q => simpa using p.le_total q

theorem sortsBefore_trans (a b c : Number) (hab : a.sortsBefore b = true)
    (hbc : b.sortsBefore c = true) : a.sortsBefore c = true := by
  unfold sortsBefore at *
  cases ha : a.position? <;> cases hb : b.position? <;> cases hc : c.position? <;>
    simp only [ha, hb, hc] at hab hbc ⊢ <;> try contradiction
  exact Position.le_trans hab hbc

end Number
end LoadReport
