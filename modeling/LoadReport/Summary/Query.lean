import LoadReport.Summary.Basic

/-!
# Queries

What can be asked of a histogram: the summary of whole latencies, the summary
of binary64 throughput samples, or a summary with an exclusion of one's own.
-/

namespace LoadReport

/-- A question to a histogram. -/
inductive Query
  | latencies (percentiles : List Number)
  | throughput (percentiles : List Number)
  | figures (percentiles : List Number) (exclude : Exclusion)

/-- The answer to a question. -/
def Query.run : Query → Histogram → Noted (Option Summary)
  | latencies percentiles, h => Summary.ofLatencies h percentiles
  | throughput percentiles, h => Summary.ofThroughput h percentiles
  | figures percentiles exclude, h => Summary.compute h.visits percentiles exclude

end LoadReport
