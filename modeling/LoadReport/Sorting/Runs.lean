import LoadReport.Instances
import LoadReport.Sorting.Merge

/-!
# Sorting by natural runs

A list is cut into runs that are in order already. A run that descends is
turned round, and a run that is too short is extended by insertion. The runs
are merged pairwise; which neighbours are merged when depends on their
lengths and places only.

The sort is stable, and for a comparison that is an order its result is
*the* stable arrangement, which any stable sort gives. It is spelled out
here for comparisons that are none, where the result is whatever this course
of comparisons leads to. No element is lost or doubled even then.
-/

namespace LoadReport
namespace Sorting

variable {α : Type}

/-! ## Cutting into runs -/

/-- The longest continuation of a run that ends with `last`, and what
follows it. -/
def splitRun (continues : α → α → Bool) (last : α) : List α → List α × List α
  | [] => ([], [])
  | a :: rest =>
      if continues last a then
        let (run, tail) := splitRun continues a rest
        (a :: run, tail)
      else
        ([], a :: rest)

/-- The first run of a list that starts with `a`, in ascending arrangement,
and what follows it. -/
def firstRun (below : α → α → Bool) (a : α) : List α → List α × List α
  | [] => ([a], [])
  | b :: rest =>
      if below b a then
        let (run, tail) := splitRun (fun last next => below next last) b rest
        ((a :: b :: run).reverse, tail)
      else
        let (run, tail) := splitRun (fun last next => !below next last) b rest
        (a :: b :: run, tail)

/-- Inserts an element where bisection leads: in front of one that is
greater, behind any other. -/
def insert (below : α → α → Bool) (run : List α) (a : α) : List α :=
  run.insertIdx (boundary .upper (fun i => run[i]?.any fun b => !below a b) 0 run.length) a

theorem perm_insert (below : α → α → Bool) (run : List α) (a : α) :
    (insert below run a).Perm (a :: run) := by
  unfold insert
  refine List.perm_insertIdx a run ?_
  exact boundary_le _ _ (Nat.zero_le _)

theorem perm_foldl_insert (below : α → α → Bool) (xs run : List α) :
    (xs.foldl (insert below) run).Perm (run ++ xs) := by
  induction xs generalizing run with
  | nil => simp
  | cons a xs ih =>
      refine (ih _).trans (((perm_insert below run a).append_right xs).trans ?_)
      exact List.perm_middle.symm

theorem splitRun_append (continues : α → α → Bool) (last : α) (rest : List α) :
    (splitRun continues last rest).1 ++ (splitRun continues last rest).2 = rest := by
  induction rest generalizing last with
  | nil => rfl
  | cons a rest ih =>
      unfold splitRun
      split
      · simp [ih a]
      · rfl

theorem perm_firstRun (below : α → α → Bool) (a : α) (rest : List α) :
    ((firstRun below a rest).1 ++ (firstRun below a rest).2).Perm (a :: rest) := by
  cases rest with
  | nil => exact List.Perm.refl _
  | cons b rest =>
      simp only [firstRun]
      split
      · refine ((List.reverse_perm _).append_right _).trans ?_
        simp [splitRun_append]
      · simp [splitRun_append]

theorem length_firstRun (below : α → α → Bool) (a : α) (rest : List α) :
    (firstRun below a rest).2.length ≤ rest.length := by
  cases rest with
  | nil => exact Nat.le_refl _
  | cons b rest =>
      have hlen (continues : α → α → Bool) :
          (splitRun continues b rest).2.length ≤ rest.length := by
        have := congrArg List.length (splitRun_append continues b rest)
        simp only [List.length_append] at this
        omega
      simp only [firstRun]
      split <;> exact Nat.le_succ_of_le (hlen _)

/-- The least length of a run in a list of `size` elements: about a power of
two of these cover the list, and each has at most 64 elements. -/
def leastRun (size : Nat) : Nat :=
  let unit := 2 ^ (size.log2 - 5)
  (size + unit - 1) / unit

/-- Cuts a list into runs of at least `least` elements, the last one
excepted. -/
def runs (below : α → α → Bool) (least : Nat) : List α → List (List α)
  | [] => []
  | a :: rest =>
      let cut := firstRun below a rest
      let missing := least - cut.1.length
      (cut.2.take missing).foldl (insert below) cut.1 :: runs below least (cut.2.drop missing)
termination_by xs => xs.length
decreasing_by
  have := length_firstRun below a rest
  simp only [List.length_drop, List.length_cons]
  omega

theorem perm_flatten_runs (below : α → α → Bool) (least : Nat) (xs : List α) :
    (runs below least xs).flatten.Perm xs := by
  fun_induction runs below least xs with
  | case1 => exact List.Perm.refl _
  | case2 a rest cut missing ih =>
      refine ((perm_foldl_insert below _ _).append ih).trans ?_
      rw [List.append_assoc, List.take_append_drop]
      exact perm_firstRun below a rest

/-! ## Merging the runs -/

/-- A run whose merging waits. -/
structure Pending (α : Type) where
  run : List α
  /-- How often the whole has to be halved until the middle of this run and
  the middle of the next one lie in different parts. -/
  depth : Nat

/-- The least number of halvings that separates two places, given as
multiples of `1 / size` of the whole. -/
def separation (size a b : Nat) : Nat :=
  ((List.range size).find? fun k => a * 2 ^ k / size != b * 2 ^ k / size).getD size

/-- Merges the latest run with those before it that lie deeper than
`depth`. The runs that wait are given the latest first. -/
def settle (below : α → α → Bool) (depth : Nat) :
    List (Pending α) → List α → Nat → List (Pending α) × List α × Nat
  | [], latest, patience => ([], latest, patience)
  | p :: waiting, latest, patience =>
      if depth < p.depth then
        let (merged, rest) := merge below patience p.run latest
        settle below depth waiting merged rest
      else (p :: waiting, latest, patience)

/-- Merges what waits until one run is left. -/
def finish (below : α → α → Bool) : List (List α) → List α → Nat → List α
  | [], latest, _ => latest
  | [b], latest, patience => (merge below patience b latest).1
  | b :: a :: waiting, latest, patience =>
      if a.length < latest.length then
        let (merged, rest) := merge below patience a b
        finish below (merged :: waiting) latest rest
      else
        let (merged, rest) := merge below patience b latest
        finish below (a :: waiting) merged rest
termination_by waiting => waiting.length

/-- Merges the runs of a list of `size` elements. The latest run starts
behind all that wait. -/
def mergeRuns (below : α → α → Bool) (size : Nat) :
    List (List α) → List (Pending α) → List α → Nat → List α
  | [], waiting, latest, patience => finish below (waiting.map (·.run)) latest patience
  | next :: others, waiting, latest, patience =>
      let start := (waiting.map (·.run.length)).sum
      let middle := 2 * start + latest.length
      let depth := separation size middle (middle + latest.length + next.length)
      let (waiting, latest, patience) := settle below depth waiting latest patience
      mergeRuns below size others (⟨latest, depth⟩ :: waiting) next patience

/-- Sorts a list by natural runs. -/
def sort (below : α → α → Bool) (xs : List α) : List α :=
  match runs below (leastRun xs.length) xs with
  | [] => []
  | first :: others => mergeRuns below xs.length others [] first payingStretch

/-! ## What the sort keeps -/

theorem perm_settle (below : α → α → Bool) (depth : Nat) (waiting : List (Pending α))
    (latest : List α) (patience : Nat) :
    ((settle below depth waiting latest patience).2.1 ++
        ((settle below depth waiting latest patience).1.map (·.run)).flatten).Perm
      (latest ++ (waiting.map (·.run)).flatten) := by
  induction waiting generalizing latest patience with
  | nil => exact List.Perm.refl _
  | cons p waiting ih =>
      unfold settle
      split
      · refine (ih _ _).trans (((perm_merge below patience p.run latest).append_right _).trans ?_)
        rw [List.map_cons, List.flatten_cons, ← List.append_assoc]
        exact List.perm_append_comm.append_right _
      · exact List.Perm.refl _

theorem perm_finish (below : α → α → Bool) (waiting : List (List α)) (latest : List α)
    (patience : Nat) :
    (finish below waiting latest patience).Perm (latest ++ waiting.flatten) := by
  fun_induction finish below waiting latest patience with
  | case1 => simp
  | case2 b latest patience =>
      simpa using (perm_merge below patience b latest).trans List.perm_append_comm
  | case3 b a waiting latest patience shorter merged rest h ih =>
      refine ih.trans (List.Perm.append_left _ ?_)
      have hm : merged.Perm (a ++ b) := by
        simpa [h] using perm_merge below patience a b
      rw [List.flatten_cons, List.flatten_cons, List.flatten_cons, ← List.append_assoc]
      exact (hm.trans List.perm_append_comm).append_right _
  | case4 b a waiting latest patience notShorter merged rest h ih =>
      have hm : merged.Perm (b ++ latest) := by
        simpa [h] using perm_merge below patience b latest
      refine ih.trans ((hm.append_right _).trans ?_)
      simpa only [List.flatten_cons, List.append_assoc] using
        List.Perm.append_right (a :: waiting).flatten
          (List.perm_append_comm : (b ++ latest).Perm (latest ++ b))

theorem perm_mergeRuns (below : α → α → Bool) (size : Nat) (others : List (List α))
    (waiting : List (Pending α)) (latest : List α) (patience : Nat) :
    (mergeRuns below size others waiting latest patience).Perm
      (latest ++ ((waiting.map (·.run)).flatten ++ others.flatten)) := by
  induction others generalizing waiting latest patience with
  | nil => simpa [mergeRuns] using perm_finish below (waiting.map (·.run)) latest patience
  | cons next others ih =>
      unfold mergeRuns
      refine (ih _ _ _).trans ?_
      rw [List.map_cons, List.flatten_cons, List.flatten_cons]
      refine (List.Perm.append_left _
        ((perm_settle below _ waiting latest patience).append_right _)).trans ?_
      rw [← List.append_assoc latest]
      exact List.perm_append_comm_assoc _ _ _

/-- The sort loses and doubles no element, whatever the comparison
answers. -/
theorem sort_perm (below : α → α → Bool) (xs : List α) : (sort below xs).Perm xs := by
  have hruns := perm_flatten_runs below (leastRun xs.length) xs
  unfold sort
  split
  · next h => simpa [h] using hruns
  · next first others h =>
      refine (perm_mergeRuns _ _ _ _ _ _).trans ?_
      simpa [h] using hruns

end Sorting
end LoadReport
