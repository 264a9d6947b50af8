import LoadReport.Decimal.Basic

/-!
# Settings

What can be configured from outside: where log messages go, and which
percentiles are reported when none are asked for.
-/

namespace LoadReport

/-- Where log messages go. -/
structure LoggingSettings where
  /-- Keeps the messages of this library to itself. -/
  disabled : Bool := false
  /-- Removes the handlers that are in place before new ones are added. -/
  clearLoggers : Bool := true
  consoleLogLevel : String := "WARNING"
  logFile : Option String := none
  logFileLevel : Option String := none
deriving DecidableEq, Repr

/-- The fractions that are reported by default: the median, the quartile
above it, and the tail. -/
def defaultPercentiles : List Binary64 :=
  [⟨false, 5, -1⟩, ⟨false, 75, -2⟩, ⟨false, 9, -1⟩, ⟨false, 95, -2⟩, ⟨false, 99, -2⟩].map
    Decimal.toBinary64

/-- What is reported by default. -/
structure StatisticsSettings where
  percentiles : List Binary64 := defaultPercentiles
deriving DecidableEq

structure Settings where
  logging : LoggingSettings := {}
  statistics : StatisticsSettings := {}
deriving DecidableEq

end LoadReport
