import LoadReport.Plan.Validation
import LoadReport.Proofs.Histogram.Recording
import LoadReport.Proofs.Summary.Outcome
import LoadReport.Session
import LoadReport.Proofs.Binary64.Nearest
import LoadReport.Proofs.Binary64.Partials
import LoadReport.Proofs.Summary.Resolution
import LoadReport.Proofs.Summary.TwoKinds
import LoadReport.Proofs.Summary.Rank
import LoadReport.Proofs.Summary.Requests
import LoadReport.Proofs.Summary.PercentileRule
import LoadReport.Proofs.Binary64.ExactSum
import LoadReport.Proofs.Histogram.Samples
import LoadReport.Proofs.Summary.VisitOrder
import LoadReport.Proofs.Summary.Samples
import LoadReport.Proofs.Histogram.Entries
import LoadReport.Proofs.Plan.Metadata
import LoadReport.Proofs.Report
import LoadReport.Proofs.Summary.Latencies
import LoadReport.Proofs.Status
import LoadReport.Proofs.Summary.Freezing
import LoadReport.Proofs.Log.Configuration
import LoadReport.Proofs.Session.Step
import LoadReport.Proofs.Session.Delivery
import LoadReport.Proofs.Session.FailedConfiguration
import LoadReport.Proofs.Summary.Accounting
import LoadReport.Proofs.Session.InForce
import LoadReport.Proofs.Settings.Loading
import LoadReport.Proofs.Histogram.VisitSequence
import LoadReport.Proofs.Session.DefaultPercentiles
import LoadReport.Proofs.Summary.Growth
import LoadReport.Proofs.Summary.Splitting
import LoadReport.Proofs.Summary.WholeMean
import LoadReport.Proofs.Summary.ZeroSpread
import LoadReport.Proofs.Summary.Faults
import LoadReport.Proofs.Plan.Validation
import LoadReport.Proofs.Plan.Decoding
import LoadReport.Proofs.Histogram.Batch
import LoadReport.Proofs.Summary.PercentileTexts
