import LoadReport.Sorting.Search

/-!
# Merging two neighbouring runs

A merge is a contest between the heads of two runs: the **near** run is the
shorter one, whose elements win a draw, and the **far** run is the longer
one. Elements are placed one by one, until one run has won as often in a
row as the contest has patience; then whole stretches are looked for by
search and placed at once, as long as the stretches are long enough to pay.
Patience falls while stretches pay and rises when they stop to, and it
outlives the merge.

**From either end.** If the shorter run comes first, the contest starts at
the front. Otherwise both runs are turned round and it starts at the back.

**Whatever the comparison answers**, no element is lost or doubled
(`perm_merge`). Where it answers by an order, the result is the stable
merge; where it does not, the result depends on which elements are compared,
so the course of the contest is fixed here in every detail.
-/

namespace LoadReport
namespace Sorting

variable {α : Type}

/-- The end at which a merge starts. -/
inductive Side
  | front | back
deriving DecidableEq, Repr

/-- Which of two middle positions a search looks at first, counted from the
end at which the merge starts. -/
def Side.middle : Side → Middle
  | front => .upper
  | back => .lower

/-- Whether the head of the far run is placed before that of the near
run. -/
def Side.farFirst (side : Side) (below : α → α → Bool) (far near : α) : Bool :=
  match side with
  | front => below far near
  | back => below near far

/-- A stretch of this length pays. -/
def payingStretch : Nat := 7

/-! ## The contest -/

/-- Two runs on their way into one. -/
structure Contest (α : Type) where
  near : List α
  far : List α
  /-- What has been placed, the latest first. -/
  placed : List α

namespace Contest

/-- Whether nothing is left to be compared: the last element of the near
run is known to come last. -/
def isSettled (c : Contest α) : Bool := c.far.isEmpty || decide (c.near.length ≤ 1)

/-- Everything in the order in which a settled contest leaves it. -/
def close (c : Contest α) : List α := c.placed.reverse ++ (c.far ++ c.near)

/-- Places the next elements of the near run. -/
def placeNear (count : Nat) (c : Contest α) : Contest α :=
  if c.isSettled then c
  else { c with near := c.near.drop count, placed := (c.near.take count).reverse ++ c.placed }

/-- Places the next elements of the far run. -/
def placeFar (count : Nat) (c : Contest α) : Contest α :=
  if c.isSettled then c
  else { c with far := c.far.drop count, placed := (c.far.take count).reverse ++ c.placed }

/-- How many elements of the near run come before the head of the far
run. -/
def nearStretch (side : Side) (below : α → α → Bool) (c : Contest α) : Nat :=
  match c.far with
  | [] => 0
  | f :: _ =>
      stretch side.middle (fun i => c.near[i]?.any fun n => !side.farFirst below f n)
        c.near.length

/-- How many elements of the far run come before the head of the near
run. -/
def farStretch (side : Side) (below : α → α → Bool) (c : Contest α) : Nat :=
  match c.near with
  | [] => 0
  | n :: _ =>
      stretch side.middle (fun i => c.far[i]?.any fun f => side.farFirst below f n) c.far.length

/-- A round in stretches: one of each run, each followed by one element of
the other run; it begins with the run that stands on the left, whatever the
side. Also says whether one of the stretches pays. -/
def round (side : Side) (below : α → α → Bool) (c : Contest α) : Contest α × Bool :=
  match side with
  | .front =>
      let first := c.nearStretch side below
      let halfway := (c.placeNear first).placeFar 1
      let second := halfway.farStretch side below
      ((halfway.placeFar second).placeNear 1,
        decide (payingStretch ≤ first ∨ payingStretch ≤ second))
  | .back =>
      let first := c.farStretch side below
      let halfway := (c.placeFar first).placeNear 1
      let second := halfway.nearStretch side below
      ((halfway.placeNear second).placeFar 1,
        decide (payingStretch ≤ first ∨ payingStretch ≤ second))

/-- Whether the head of the far run is placed next. -/
def farWins (side : Side) (below : α → α → Bool) (c : Contest α) : Bool :=
  match c.far, c.near with
  | f :: _, n :: _ => side.farFirst below f n
  | _, _ => false

end Contest

/-- How a contest goes on. -/
inductive Pace
  /-- Element by element, with the wins in a row of either run. -/
  | singly (nearWins farWins : Nat)
  /-- By rounds in stretches. -/
  | inStretches
deriving DecidableEq, Repr

/-- How a contest goes on after the far run (or the near one) has won for the
`wins`-th time in a row. -/
def Pace.afterWin (patience wins : Nat) (far : Bool) : Pace :=
  if patience ≤ wins then .inStretches
  else if far then .singly 0 wins
  else .singly wins 0

/-- Runs a contest for at most `fuel` steps. Gives the order of everything
and the patience that is left. -/
def Contest.run (side : Side) (below : α → α → Bool) :
    Nat → Pace → Nat → Contest α → List α × Nat
  | 0, _, patience, c => (c.close, patience)
  | fuel + 1, pace, patience, c =>
      if c.isSettled then (c.close, patience)
      else
        match pace with
        | .singly nearWins farWins =>
            if c.farWins side below then
              run side below fuel (.afterWin patience (farWins + 1) true) patience (c.placeFar 1)
            else
              run side below fuel (.afterWin patience (nearWins + 1) false) patience (c.placeNear 1)
        | .inStretches =>
            let (next, pays) := c.round side below
            if next.isSettled then (next.close, patience)
            else if pays then run side below fuel .inStretches (max 1 (patience - 1)) next
            else run side below fuel (.singly 0 0) (patience + 1) next

/-- Merges a near and a far run, whose elements are given in the order in
which the merge meets them. The head of the far run is known to come
first. -/
def contend (side : Side) (below : α → α → Bool) (patience : Nat) (near far : List α) :
    List α × Nat :=
  Contest.run side below (near.length + far.length) (.singly 0 0) patience
    (Contest.placeFar 1 { near, far, placed := [] })

/-! ## What a contest keeps -/

namespace Contest

theorem perm_placeNear (count : Nat) (c : Contest α) : (c.placeNear count).close.Perm c.close := by
  unfold placeNear
  split
  · exact List.Perm.refl _
  · simp only [close, List.reverse_append, List.reverse_reverse, List.append_assoc]
    refine List.Perm.append_left _ ?_
    refine (List.perm_append_comm_assoc _ _ _).trans ?_
    rw [List.take_append_drop]

theorem perm_placeFar (count : Nat) (c : Contest α) : (c.placeFar count).close.Perm c.close := by
  unfold placeFar
  split
  · exact List.Perm.refl _
  · simp only [close, List.reverse_append, List.reverse_reverse, List.append_assoc]
    rw [← List.append_assoc (c.far.take count), List.take_append_drop]

theorem perm_round (side : Side) (below : α → α → Bool) (c : Contest α) :
    (c.round side below).1.close.Perm c.close := by
  cases side
  · exact (perm_placeNear _ _).trans
      ((perm_placeFar _ _).trans ((perm_placeFar _ _).trans (perm_placeNear _ _)))
  · exact (perm_placeFar _ _).trans
      ((perm_placeNear _ _).trans ((perm_placeNear _ _).trans (perm_placeFar _ _)))

theorem perm_run (side : Side) (below : α → α → Bool) (fuel : Nat) (pace : Pace)
    (patience : Nat) (c : Contest α) :
    (Contest.run side below fuel pace patience c).1.Perm c.close := by
  induction fuel generalizing pace patience c with
  | zero => exact List.Perm.refl _
  | succ fuel ih =>
      unfold Contest.run
      split
      · exact List.Perm.refl _
      · cases pace with
        | singly nearWins farWins =>
            dsimp only
            split
            · exact (ih _ _ _).trans (perm_placeFar _ _)
            · exact (ih _ _ _).trans (perm_placeNear _ _)
        | inStretches =>
            have hround := perm_round side below c
            dsimp only
            split
            · exact hround
            · split <;> exact (ih _ _ _).trans hround

end Contest

theorem perm_contend (side : Side) (below : α → α → Bool) (patience : Nat) (near far : List α) :
    (contend side below patience near far).1.Perm (near ++ far) := by
  refine (Contest.perm_run _ _ _ _ _ _).trans ((Contest.perm_placeFar _ _).trans ?_)
  simpa [Contest.close] using List.perm_append_comm

/-! ## Neighbouring runs -/

/-- Merges the parts of two neighbouring runs that have to be mixed, the
shorter of them being the near run. -/
def mix (below : α → α → Bool) (patience : Nat) (left right : List α) : List α × Nat :=
  if left.length ≤ right.length then contend .front below patience left right
  else
    let (merged, rest) := contend .back below patience right.reverse left.reverse
    (merged.reverse, rest)

/-- How many elements of the left run come before the whole right run. -/
def leading (below : α → α → Bool) (left right : List α) : Nat :=
  match right with
  | [] => left.length
  | r :: _ => stretch .upper (fun i => left[i]?.any fun l => !below r l) left.length

/-- How many elements of the right run come behind the whole left run. -/
def trailing (below : α → α → Bool) (left right : List α) : Nat :=
  match left.getLast? with
  | none => right.length
  | some l =>
      let backwards := right.reverse
      stretch .lower (fun i => backwards[i]?.any fun r => !below r l) right.length

def merge (below : α → α → Bool) (patience : Nat) (left right : List α) : List α × Nat :=
  let (ahead, mixedLeft) := left.splitAt (leading below left right)
  if mixedLeft.isEmpty then (left ++ right, patience)
  else
    let (mixedRight, behind) := right.splitAt (right.length - trailing below left right)
    if mixedRight.isEmpty then (left ++ right, patience)
    else
      let (merged, rest) := mix below patience mixedLeft mixedRight
      (ahead ++ (merged ++ behind), rest)

theorem perm_mix (below : α → α → Bool) (patience : Nat) (left right : List α) :
    (mix below patience left right).1.Perm (left ++ right) := by
  unfold mix
  split
  · exact perm_contend _ _ _ _ _
  · refine (List.reverse_perm _).trans ((perm_contend _ _ _ _ _).trans ?_)
    exact ((List.reverse_perm _).append (List.reverse_perm _)).trans List.perm_append_comm

theorem perm_merge (below : α → α → Bool) (patience : Nat) (left right : List α) :
    (merge below patience left right).1.Perm (left ++ right) := by
  unfold merge
  simp only [List.splitAt_eq]
  split
  · exact List.Perm.refl _
  · split
    · exact List.Perm.refl _
    · refine (List.Perm.append_left _ ((perm_mix _ _ _ _).append_right _)).trans ?_
      refine List.Perm.of_eq ?_
      rw [List.append_assoc, List.take_append_drop, ← List.append_assoc, List.take_append_drop]

end Sorting
end LoadReport
