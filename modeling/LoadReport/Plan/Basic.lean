import LoadReport.Binary64.Basic
import LoadReport.Number.Basic

/-!
# Plans

A plan says how a load test is to be run: where the requests go, how many
connections are used, when the test ends and what each request looks like.

The test type and the client type are normally one of the known ones. A plan
may also have been declared with a text in their place; such a text is kept
as it is and is none of the known types, even if it spells one of them.
-/

namespace LoadReport

/-- What ends a test. -/
inductive TestType
  | byDuration
  | byRequestCount
deriving DecidableEq, Repr

namespace TestType

def label : TestType → String
  | byDuration => "by_duration"
  | byRequestCount => "by_request_count"

def ofLabel? (label : String) : Option TestType :=
  [byDuration, byRequestCount].find? fun t => t.label == label

theorem ofLabel?_label (t : TestType) : ofLabel? t.label = some t := by
  cases t <;> decide

end TestType

/-- Which client sends the requests. -/
inductive ClientType
  | fast
  | http1
  | http2
deriving DecidableEq, Repr

namespace ClientType

def label : ClientType → String
  | fast => "fast"
  | http1 => "http1"
  | http2 => "http2"

def ofLabel? (label : String) : Option ClientType :=
  [fast, http1, http2].find? fun t => t.label == label

theorem ofLabel?_label (t : ClientType) : ofLabel? t.label = some t := by
  cases t <;> decide

end ClientType

/-- A known type, or a text that was declared in its place. -/
inductive Declared (α : Type)
  | known (type : α)
  | text (text : String)
deriving DecidableEq, Repr

/-- Whether a declaration is a given known type. -/
def Declared.is {α : Type} [DecidableEq α] (d : Declared α) (type : α) : Bool :=
  match d with
  | known t => decide (t = type)
  | text _ => false

structure Header where
  key : String
  value : String
deriving DecidableEq, Repr

/-- How a load test is to be run. -/
structure Plan where
  url : String
  connections : Number := .int 125
  testType : Declared TestType := .known .byDuration
  requests : Number := .int 0
  /-- The length of a timed test in seconds. -/
  duration : Number := .float (.ofInt 10)
  method : String := "GET"
  headers : List Header := []
  body : String := ""
  bodyFile : String := ""
  certPath : String := ""
  keyPath : String := ""
  stream : Bool := false
  /-- The time in seconds after which a request is given up. -/
  timeout : Number := .float (.ofInt 2)
  clientType : Declared ClientType := .known .fast
  /-- The limit on requests per second, if there is one. -/
  rate : Option Number := none
deriving DecidableEq

namespace Plan

/-- The test ends after some time. -/
def isTimed (p : Plan) : Bool := p.testType.is .byDuration

/-- The test ends after some number of requests. -/
def isCounted (p : Plan) : Bool := p.testType.is .byRequestCount

/-- No test is both timed and counted. -/
theorem not_isTimed_and_isCounted (p : Plan) : (p.isTimed && p.isCounted) = false := by
  unfold isTimed isCounted Declared.is
  cases p.testType with
  | known t => cases t <;> rfl
  | text _ => rfl

end Plan
end LoadReport
