import LoadReport.Binary64.ExactSum
import LoadReport.Summary.Arrangement
import LoadReport.Summary.Percentile

/-!
# Summaries of histograms

A summary is computed from the sequence of buckets that a traversal passes.
An **exclusion** says which keys are to be treated as absent; of the rest
the buckets with a positive count are **retained**, and only these enter
the summary.

- The mean is weighted by the counts. If all retained keys are whole it is
  the exact quotient rounded once; otherwise the products are summed without
  rounding on the way and the sum is divided by the total.
- The spread is the root of the squared deviations, each retained bucket
  counted once, over the total; it is zero for one or two samples.
- The greatest key is given in binary64.

Faults end the computation where they occur, so what is asked for first is
reported first: exclusion, the notice of what was excluded, percentiles, mean,
deviations, spread, greatest key.
-/

namespace LoadReport

/-- Says which keys are treated as absent. -/
abbrev Exclusion := Number → Except Fault Bool

namespace Exclusion

def nothing : Exclusion := fun _ => .ok false

/-- Excludes infinities and NaN. Whole numbers are looked at in binary64
and have to fit. -/
def nonFinite : Exclusion := fun key => key.toBinary64.map fun x => !x.isFinite

/-- How a key may relate to a fixed one. -/
inductive Relation
  | lt | le | eq | ge | gt
deriving DecidableEq, Repr

def Relation.holds (relation : Relation) (a b : Number) : Bool :=
  match relation with
  | lt => a.lt b
  | le => a.le b
  | eq => a.same b
  | ge => b.le a
  | gt => b.lt a

/-- Excludes the keys that are in a relation to a fixed one. -/
def related (relation : Relation) (fixed : Number) : Exclusion :=
  fun key => .ok (relation.holds key fixed)

end Exclusion

/-- Statistics of the retained part of a histogram. -/
structure Summary where
  mean : Binary64
  stddev : Binary64
  max : Binary64
  /-- Requested fractions with their keys, in order of request. -/
  percentiles : Table Number Number
deriving DecidableEq

namespace Summary

/-- What is retained, and how many samples were excluded. -/
structure Kept where
  buckets : List Bucket
  excluded : Int

def Kept.total (kept : Kept) : Int := (kept.buckets.map (·.2)).sum

/-- Splits a traversal into what is retained and what is excluded. -/
def keep (exclude : Exclusion) : List Bucket → Except Fault Kept
  | [] => .ok { buckets := [], excluded := 0 }
  | (key, count) :: rest => do
      let out ← exclude key
      let kept ← keep exclude rest
      if out then .ok { kept with excluded := count + kept.excluded }
      else if 0 < count then .ok { kept with buckets := (key, count) :: kept.buckets }
      else .ok kept

/-- The product of a whole key and its count; zero for other keys. -/
def wholeProduct : Bucket → Int
  | (.int key, count) => key * count
  | (.float _, _) => 0

def meanOf (buckets : List Bucket) (total : Int) : Except Fault Binary64 :=
  if buckets.all fun b => b.1.isInt then
    Binary64.quotient (buckets.map wholeProduct).sum total
  else do
    let sum ← Binary64.ExactSum.sumBy (fun b : Bucket => b.1.times b.2) buckets
    sum.overCount total

def squaredDeviation (mean : Binary64) (key : Number) : Except Fault Binary64 := do
  let deviation ← key.minus mean
  deviation.square

/-- The spread that squared deviations amount to. -/
def spreadOf (deviations : List Binary64) (total : Int) : Except Fault Binary64 :=
  if 2 < total then do
    let sum ← Binary64.ExactSum.sumBy Except.ok deviations
    let variance ← sum.overCount total
    variance.root
  else
    .ok (.zero false)

/-- The greatest key of ascending buckets, in binary64. -/
def greatest (ascending : List Bucket) : Except Fault Binary64 :=
  (ascending.getLastD (.int 0, 0)).1.toBinary64

/-- The summary of what a traversal passes, if any samples are retained. -/
def compute (visits : List Bucket) (percentiles : List Number) (exclude : Exclusion) :
    Noted (Option Summary) := do
  let kept ← Noted.lift (keep exclude visits)
  if kept.excluded ≠ 0 then
    let notice ← Noted.lift (Notice.ofExcluded kept.excluded)
    Noted.note notice
  let total := kept.total
  if total < 1 then
    Noted.note .noSamples
    return none
  let ascending := Arrangement.arrange kept.buckets
  let resolved ← Percentile.resolve ascending total [] percentiles
  let mean ← Noted.lift (meanOf ascending total)
  let deviations ← Noted.lift (kept.buckets.mapM fun b => squaredDeviation mean b.1)
  let stddev ← Noted.lift (spreadOf deviations total)
  let max ← Noted.lift (greatest ascending)
  return some { mean, stddev, max, percentiles := resolved }

/-- The summary of latencies, in microseconds: every key counts. -/
def ofLatencies (h : Histogram) (percentiles : List Number) : Noted (Option Summary) :=
  compute h.visits percentiles .nothing

/-- The summary of throughput samples, in requests per second: infinite
rates and NaN do not count. -/
def ofThroughput (h : Histogram) (percentiles : List Number) : Noted (Option Summary) :=
  compute h.visits percentiles .nonFinite

/-- The percentiles under the written form of their fractions. -/
def percentileTexts (s : Summary) : Table String Number :=
  Table.ofPairs (· == ·) (s.percentiles.map fun entry => (entry.1.text, entry.2))

end Summary
end LoadReport
