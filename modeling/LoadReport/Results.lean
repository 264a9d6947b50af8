import LoadReport.Plan.Metadata
import LoadReport.Settings.Basic
import LoadReport.Status
import LoadReport.Summary.Basic

/-!
# Results and reports

The results of a run are its raw figures: bytes, time, counters, error
messages, and the histograms of latencies and throughput. A **report** is
what is made of them: errors by falling count, status codes by rising code,
and a summary of each histogram.

Codes are listed in writing, so a code with too many digits leaves a run without
a report.

A report does not depend on the order in which errors, codes and buckets
were collected: all three are put into an order of their own.
-/

namespace LoadReport

/-- An error message with its number of occurrences. -/
structure ErrorCount where
  error : String
  count : Int
deriving DecidableEq, Repr

/-- The figures of a run. -/
structure Results where
  bytesRead : Int := 0
  bytesWritten : Int := 0
  /-- The length of the run in seconds. -/
  timeTaken : Number := .float (.zero false)
  tally : Tally := {}
  statusCodes : Table Int Int := []
  errors : List ErrorCount := []
  latencies : Histogram := .frozen {}
  requests : Histogram := .frozen {}
deriving DecidableEq

/-- What is made of the figures of a run. -/
structure Report where
  bytesRead : Int
  bytesWritten : Int
  timeTaken : Number
  tally : Tally
  /-- Status codes ascending. -/
  statusCodes : List (Int × Int)
  /-- Errors by falling count. -/
  errors : List ErrorCount
  latency : Option Summary
  throughput : Option Summary
deriving DecidableEq

structure RunReport where
  plan : Metadata
  report : Report
deriving DecidableEq

/-- Why there is no report. -/
inductive ReportError
  | plan (error : MetadataError)
  | figures (fault : Fault)
deriving DecidableEq

/-- Errors are listed by falling count, those of one count by message. -/
def ErrorCount.listedBefore (a b : ErrorCount) : Bool :=
  if a.count = b.count then !decide (b.error < a.error) else decide (b.count < a.count)

namespace Results

/-- Bytes per second, read and written combined. A run of no length has an
infinite throughput, or none at all if there were no bytes. -/
def bytesPerSecond (r : Results) : Except Fault Binary64 := do
  let total := r.bytesRead + r.bytesWritten
  let bytes ← Binary64.fitInt total
  if r.timeTaken.same (.int 0) then
    return if total = 0 then .nan else .infinite (decide (total < 0))
  else
    let seconds ← r.timeTaken.toBinary64
    return bytes.div seconds

def sortedErrors (r : Results) : List ErrorCount :=
  r.errors.mergeSort ErrorCount.listedBefore

def sortedCodes (r : Results) : List (Int × Int) :=
  r.statusCodes.mergeSort fun a b => decide (a.1 ≤ b.1)

/-- The codes of a report, unless one of them has too many digits to be listed. -/
def listedCodes (r : Results) : Except Fault (List (Int × Int)) :=
  if r.sortedCodes.all fun entry => (Number.int entry.1).isWritable then .ok r.sortedCodes
  else .error .tooManyDigits

/-- The fractions that are reported: those asked for, or by default those of
the settings. -/
def fractions (settings : Settings) (percentiles : Option (List Number)) : List Number :=
  percentiles.getD (settings.statistics.percentiles.map .float)

def latencySummary (r : Results) (settings : Settings) (percentiles : Option (List Number)) :
    Noted (Option Summary) :=
  Summary.ofLatencies r.latencies (fractions settings percentiles)

def throughputSummary (r : Results) (settings : Settings) (percentiles : Option (List Number)) :
    Noted (Option Summary) :=
  Summary.ofThroughput r.requests (fractions settings percentiles)

def report (r : Results) (settings : Settings) (percentiles : Option (List Number)) :
    Noted Report := do
  let latency ← r.latencySummary settings percentiles
  let throughput ← r.throughputSummary settings percentiles
  let statusCodes ← Noted.lift r.listedCodes
  return {
    bytesRead := r.bytesRead
    bytesWritten := r.bytesWritten
    timeTaken := r.timeTaken
    tally := r.tally
    errors := r.sortedErrors
    statusCodes, latency, throughput }

def runReport (r : Results) (plan : Plan) (settings : Settings)
    (percentiles : Option (List Number)) : Except ReportError RunReport := do
  let plan ← (Metadata.ofPlan plan).mapError .plan
  let report ← (r.report settings percentiles).outcome.mapError .figures
  return { plan, report }

theorem sortedErrors_perm (r : Results) : r.sortedErrors.Perm r.errors :=
  List.mergeSort_perm _ _

theorem sortedCodes_perm (r : Results) : r.sortedCodes.Perm r.statusCodes :=
  List.mergeSort_perm _ _

end Results
end LoadReport
