import LoadReport.Binary64.Arithmetic
import LoadReport.Fault

/-!
# Sums without rounding on the way

A sum of binary64 numbers is rounded once, at the end. Until then it is
kept as a list of **partial sums**, in units, smallest first: a new summand
is added to each of them in turn, what rounding loses stays behind as a
partial sum of its own, and the rounded sum moves on.

So the partial sums add up to the exact sum at any time (`sum_absorb`), and
the result depends on the summands alone. What does depend on their order is
whether a rounded sum on the way exceeds the largest finite number; then the
sum is given up, even if later summands would have brought it back.

Infinities and NaN are kept aside. They decide the result, and they clear
the partial sums; infinities of both signs have no sum.
-/

namespace LoadReport
namespace Binary64

/-- A sum in progress. -/
structure ExactSum where
  /-- What adds up to the sum of the finite summands, in units. -/
  partials : List Int := []
  sawNan : Bool := false
  sawAbove : Bool := false
  sawBelow : Bool := false
deriving DecidableEq, Repr

namespace ExactSum

/-- A number of units, rounded to 53 significant bits. -/
def roundUnits (n : Int) : Int :=
  if n < 0 then -(roundQuotient n.natAbs 1 : Int) else roundQuotient n.natAbs 1

/-- Carries a summand through the partial sums; `none` if a rounded sum is
too large. -/
def absorb : List Int → Int → Option (List Int)
  | [], x => some (if x = 0 then [] else [x])
  | y :: rest, x =>
      let high := roundUnits (x + y)
      let low := x + y - high
      if high.natAbs < unitsLimit then
        (absorb rest high).map fun kept => if low = 0 then kept else low :: kept
      else none

def add (s : ExactSum) (x : Binary64) : Except Fault ExactSum :=
  match x with
  | nan => .ok { s with partials := [], sawNan := true }
  | infinite false => .ok { s with partials := [], sawAbove := true }
  | infinite true => .ok { s with partials := [], sawBelow := true }
  | finite negative units _ =>
      match absorb s.partials (if negative then -(units : Int) else units) with
      | some partials => .ok { s with partials }
      | none => .error .sumTooLarge

def total (s : ExactSum) : Except Fault Binary64 :=
  if s.sawAbove && s.sawBelow then .error .opposedInfinities
  else if s.sawNan then .ok nan
  else if s.sawAbove then .ok (infinite false)
  else if s.sawBelow then .ok (infinite true)
  else .ok (ofSignedUnits false s.partials.sum)

/-- The sum of what a list gives rise to, each summand computed when its
turn comes. -/
def sumBy {α : Type} (summand : α → Except Fault Binary64) (items : List α) :
    Except Fault Binary64 := do
  let s ← items.foldlM (fun s a => do s.add (← summand a)) ({} : ExactSum)
  s.total

/-! ## The partial sums add up -/

/-- Absorbing a summand adds it to the sum of the partial sums: rounding
only moves value from one partial sum to another. -/
theorem sum_absorb : ∀ {ps : List Int} {x : Int} {qs : List Int},
    absorb ps x = some qs → qs.sum = ps.sum + x
  | [], x, qs, h => by
      simp only [absorb, Option.some.injEq] at h
      subst h
      split <;> simp_all
  | y :: rest, x, qs, h => by
      simp only [absorb] at h
      split at h
      · obtain ⟨kept, hkept, rfl⟩ := Option.map_eq_some_iff.mp h
        have ih := sum_absorb hkept
        split <;> simp only [List.sum_cons] <;> omega
      · cases h

end ExactSum
end Binary64
end LoadReport
