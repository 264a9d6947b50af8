import LoadReport.Histogram.Basic
import LoadReport.Number.Arithmetic
import LoadReport.Summary.Notice

/-!
# Percentiles

A percentile is asked for as a fraction `p` between 0 and 1. Its **rank**
among `total` samples is the whole part of `p · total + 1/2`, computed in
binary64, and its value is the first key, ascending, whose cumulative count
reaches the rank.

Requests are answered in order. One that is the same by value as a request
already resolved adds nothing; one outside of the range is dropped with a
notice, and if it has too many digits for a notice it ends the computation; and
a rank beyond the last cumulative count, which rounding can produce for huge
totals, leaves the request unresolved with a notice.
-/

namespace LoadReport
namespace Percentile

/-- Whether a fraction lies between 0 and 1; NaN does not. -/
def inRange (p : Number) : Bool :=
  (Number.int 0).le p && p.le (Number.int 1)

/-- The rank of a fraction among `total` samples. -/
def rank (p : Number) (total : Int) : Except Fault Int := do
  let product ← p.times total
  (product.add .half).floor

/-- The first key whose cumulative count reaches a rank, when `reached`
samples have been passed already. -/
def keyAtRank (rank reached : Int) : List Bucket → Option Number
  | [] => none
  | (key, count) :: rest =>
      if rank ≤ reached + count then some key
      else keyAtRank rank (reached + count) rest

/-- What becomes of a requested fraction. -/
inductive Answer
  | repeated
  | outOfRange (notice : Notice)
  | unresolved (rank : Int)
  | key (key : Number)
deriving DecidableEq

/-- Answers one request, given the ascending buckets, their total and the
requests resolved before. -/
def answer (ascending : List Bucket) (total : Int) (resolved : Table Number Number) (p : Number) :
    Except Fault Answer :=
  if Table.contains Number.same p resolved then .ok .repeated
  else if !inRange p then (Notice.ofDropped p).map .outOfRange
  else
    (rank p total).map fun r =>
      match keyAtRank r 0 ascending with
      | some key => .key key
      | none => .unresolved r

/-- Answers a list of requests in order. -/
def resolve (ascending : List Bucket) (total : Int) :
    Table Number Number → List Number → Noted (Table Number Number)
  | resolved, [] => pure resolved
  | resolved, p :: rest => do
      match ← Noted.lift (answer ascending total resolved p) with
      | .repeated => resolve ascending total resolved rest
      | .outOfRange notice =>
          Noted.note notice
          resolve ascending total resolved rest
      | .unresolved r =>
          Noted.note (.unresolved p r)
          resolve ascending total resolved rest
      | .key key => resolve ascending total (resolved ++ [(p, key)]) rest

end Percentile
end LoadReport
