/-!
# Searching for a boundary

A boundary divides the positions of a list into those that pass a test, in
front, and the others behind them. Both searches here look at few positions
only. If the test has no boundary, they still answer, and then the answer
depends on which positions are looked at, so these are fixed:

- `boundary` halves an interval of positions;
- `stretch` first doubles its stride from the front and then halves the
  interval between the last two positions looked at.
-/

namespace LoadReport
namespace Sorting

/-- Which of the two middle positions of an interval of even length is
looked at first. -/
inductive Middle
  | upper | lower
deriving DecidableEq, Repr

/-- The position in the middle of `length` positions behind `lo`. -/
def Middle.position (middle : Middle) (lo length : Nat) : Nat :=
  match middle with
  | upper => lo + length / 2
  | lower => lo + (length - 1) / 2

theorem Middle.position_lt (middle : Middle) (lo : Nat) {length : Nat} (h : 0 < length) :
    middle.position lo length < lo + length := by
  cases middle <;> simp only [position] <;> omega

theorem Middle.le_position (middle : Middle) (lo length : Nat) :
    lo ≤ middle.position lo length := by
  cases middle <;> simp only [position] <;> omega

/-- The boundary between `lo` and `hi`, by halving. -/
def boundary (middle : Middle) (passes : Nat → Bool) (lo hi : Nat) : Nat :=
  if h : lo < hi then
    let mid := middle.position lo (hi - lo)
    if passes mid then boundary middle passes (mid + 1) hi
    else boundary middle passes lo mid
  else lo
termination_by hi - lo
decreasing_by
  · have := middle.le_position lo (hi - lo)
    omega
  · have := middle.position_lt lo (by omega : 0 < hi - lo)
    omega

theorem boundary_le (middle : Middle) (passes : Nat → Bool) {lo hi : Nat} (h : lo ≤ hi) :
    boundary middle passes lo hi ≤ hi := by
  fun_induction boundary middle passes lo hi with
  | case1 lo hi hlt mid passed ih =>
      have := middle.position_lt lo (by omega : 0 < hi - lo)
      exact ih (by omega)
  | case2 lo hi hlt mid failed ih =>
      have hpos := middle.position_lt lo (by omega : 0 < hi - lo)
      have hle := middle.le_position lo (hi - lo)
      exact Nat.le_trans (ih hle) (by omega)
  | case3 => exact h

/-- Doubles the stride until a position fails the test or the `size`
positions are over: the last position that passed, and the next one that
would be looked at. -/
def leap (passes : Nat → Bool) (size last next : Nat) : Nat × Nat :=
  if next < size ∧ last < next then
    if passes next then leap passes size next (2 * next + 1) else (last, next)
  else (last, min next size)
termination_by size - next

/-- How many of `size` positions in front pass the test. -/
def stretch (middle : Middle) (passes : Nat → Bool) (size : Nat) : Nat :=
  if passes 0 then
    let (last, next) := leap passes size 0 1
    boundary middle passes (last + 1) next
  else 0

end Sorting
end LoadReport
