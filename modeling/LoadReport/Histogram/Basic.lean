import LoadReport.Fault
import LoadReport.Number.Text
import LoadReport.Table

/-!
# Histograms

A histogram says how often each key occurred. There are three kinds, and
the rest of the library sees them through one view, `visits`: the sequence
of buckets that a traversal passes.

- A **recorder** counts while a run is going on. Counts only grow, and the
  total is kept beside them, so asking for it does not add anything up.
- A **frozen** histogram is a table of counts that no longer changes. It may
  come from anywhere, so its counts may have any sign.
- A **listed** histogram is whatever sequence of buckets somebody else's
  traversal produces, in that order, repeated keys included.

Keys of the first two are unique by value, except that NaN is never the
same key twice: every NaN that is recorded stands for an object of its own, and
no bucket is found again by the object that is its key. Their traversal is
ascending, with the NaN keys last in the order in which they were added.
-/

namespace LoadReport

/-- A key with its number of occurrences. -/
abbrev Bucket := Number × Int

/-- The order in which a traversal passes the buckets of a table. -/
def visitOrder (buckets : Table Number Int) : List Bucket :=
  buckets.mergeSort fun a b => a.1.sortsBefore b.1

/-- Why a count was not recorded. -/
inductive RecordError
  | negativeCount (count : Int)
deriving DecidableEq, Repr

/-- The wording of a recording error; a count with too many digits to be told is
told as that. -/
def RecordError.message : RecordError → String
  | negativeCount count =>
      if (Number.int count).isWritable then
        "Histogram counts must be non-negative, got " ++ toString count
      else Fault.tooManyDigits.message

/-! ## Recording -/

/-- Counts in order of first occurrence, and their running total. -/
structure Recorder where
  buckets : Table Number Nat := []
  total : Nat := 0
deriving DecidableEq

namespace Recorder

/-- Counts further occurrences of a key. -/
def record (r : Recorder) (key : Number) (count : Nat) : Recorder :=
  { buckets := Table.update Number.same key (fun old => old.getD 0 + count) r.buckets
    total := r.total + count }

/-- Counts further occurrences of a key; a negative count is refused. -/
def add (r : Recorder) (key : Number) (count : Int) : Except RecordError Recorder :=
  match count with
  | .ofNat n => .ok (r.record key n)
  | .negSucc n => .error (.negativeCount (.negSucc n))

/-- How often a key occurred. -/
def get (r : Recorder) (key : Number) : Nat :=
  (Table.get? Number.same key r.buckets).getD 0

/-- The number of occurrences of each sample, in order of first
occurrence. -/
def occurrences (samples : List Number) : Table Number Nat :=
  samples.foldl (fun t key => Table.update Number.same key (fun old => old.getD 0 + 1) t) []

/-- The recorder of a list of samples, which are counted first and recorded
by key. -/
def ofSamples (samples : List Number) : Recorder :=
  (occurrences samples).foldl (fun r bucket => r.record bucket.1 bucket.2) {}

/-- The buckets as a traversal passes them. -/
def visits (r : Recorder) : List Bucket :=
  visitOrder (r.buckets.map fun bucket => (bucket.1, (bucket.2 : Int)))

end Recorder

/-! ## Frozen counts -/

/-- A table of counts. -/
structure Frozen where
  buckets : Table Number Int := []
deriving DecidableEq

namespace Frozen

/-- The table of a list of counts: of equal keys the first form stays, with
the last count. -/
def ofPairs (counts : List Bucket) : Frozen :=
  ⟨Table.ofPairs Number.same counts⟩

def get (f : Frozen) (key : Number) : Int :=
  (Table.get? Number.same key f.buckets).getD 0

def total (f : Frozen) : Int := (f.buckets.map (·.2)).sum

def visits (f : Frozen) : List Bucket := visitOrder f.buckets

end Frozen

def Recorder.freeze (r : Recorder) : Frozen :=
  ⟨r.buckets.map fun bucket => (bucket.1, (bucket.2 : Int))⟩

/-! ## The common view -/

/-- A histogram of any of the three kinds. -/
inductive Histogram
  | live (recorder : Recorder)
  | frozen (counts : Frozen)
  | listed (buckets : List Bucket)
deriving DecidableEq

namespace Histogram

/-- The sequence of buckets that a traversal passes. -/
def visits : Histogram → List Bucket
  | live r => r.visits
  | frozen f => f.visits
  | listed buckets => buckets

/-- A traversal: the visitor is called on bucket after bucket, until it
answers `false`. -/
def traverse {σ : Type} (visitor : σ → Bucket → σ × Bool) : σ → List Bucket → σ
  | state, [] => state
  | state, bucket :: rest =>
      match visitor state bucket with
      | (next, true) => traverse visitor next rest
      | (next, false) => next

/-- The buckets that a visitor sees that answers `false` on its call number
`limit`. -/
def visitsUpTo (limit : Option Nat) (h : Histogram) : List Bucket :=
  let visitor (seen : List Bucket) (bucket : Bucket) : List Bucket × Bool :=
    (bucket :: seen, limit.all fun n => decide (seen.length + 1 < n))
  (traverse visitor [] h.visits).reverse

end Histogram

/-! ## What traversals keep -/

theorem visitOrder_perm (buckets : Table Number Int) : (visitOrder buckets).Perm buckets :=
  List.mergeSort_perm _ _

/-- A traversal passes the buckets in the listing order of their keys. -/
theorem pairwise_visitOrder (buckets : Table Number Int) :
    (visitOrder buckets).Pairwise fun a b => a.1.sortsBefore b.1 = true :=
  List.pairwise_mergeSort
    (fun a b c => Number.sortsBefore_trans a.1 b.1 c.1)
    (fun a b => Number.sortsBefore_total a.1 b.1) buckets

theorem visits_freeze (r : Recorder) : r.freeze.visits = r.visits := rfl

end LoadReport
