import LoadReport.Fault
import LoadReport.Number.Text
import LoadReport.Plan.Basic
import LoadReport.Url.Basic

/-!
# Validation of plans

A plan is refused if it cannot be run. Its fields are looked at in a fixed
order and the first objection is reported. Every rule about a number refuses
the numbers that compare badly; a NaN compares with nothing, so no such rule
refuses it. An objection to a number tells it, so to one with too many digits
there is none, and the plan is refused for want of a text.
-/

namespace LoadReport

/-- Why a plan cannot be run. -/
inductive PlanError
  | connections (found : Number)
  | duration (found : Number)
  | requestCount (found : Number)
  | unsupportedTest (type : String)
  | negativeTimeout (found : Number)
  | bodyTwice
  | missingKey
  | missingCertificate
  | rate (found : Number)
  | tooManyDigits
  | refusedUrl (cause : UrlError)
  | invalidUrl (url : String)
deriving DecidableEq

def PlanError.message : PlanError → String
  | connections n => "Number of connections must be positive, got " ++ n.text
  | duration n => "Test duration must be positive, got " ++ n.text ++ "s"
  | requestCount n => "Number of requests must be positive, got " ++ n.text
  | unsupportedTest type => "Unsupported test type: " ++ type
  | negativeTimeout n => "Timeout can't be negative, got " ++ n.text ++ "s"
  | bodyTwice => "Body and body file path can't be provided at the same time"
  | missingKey => "Client key path is required when the other one is set"
  | missingCertificate => "Client certificate path is required when the other one is set"
  | rate n => "Rate must be positive when set, got " ++ n.text
  | tooManyDigits => Fault.tooManyDigits.message
  | refusedUrl cause => cause.message
  | invalidUrl url => "Invalid URL: " ++ Text.quoted url

namespace Plan

def refuseIf (condition : Bool) (error : PlanError) : Except PlanError Unit :=
  if condition then .error error else .ok ()

/-- Objects to a number if a condition holds. -/
def refuseNumberIf (condition : Bool) (error : Number → PlanError) (found : Number) :
    Except PlanError Unit :=
  refuseIf condition (if found.isWritable then error found else .tooManyDigits)

def checkEnd (p : Plan) : Except PlanError Unit :=
  match p.testType with
  | .known .byDuration => refuseNumberIf (p.duration.le (.int 0)) .duration p.duration
  | .known .byRequestCount => refuseNumberIf (p.requests.lt (.int 1)) .requestCount p.requests
  | .text type => .error (.unsupportedTest type)

def checkRate (p : Plan) : Except PlanError Unit :=
  match p.rate with
  | none => .ok ()
  | some rate => refuseNumberIf (rate.le (.int 0)) .rate rate

/-- The rules about everything but the URL. -/
def checkFields (p : Plan) : Except PlanError Unit := do
  refuseNumberIf (p.connections.lt (.int 1)) .connections p.connections
  p.checkEnd
  refuseNumberIf (p.timeout.lt (.int 0)) .negativeTimeout p.timeout
  refuseIf (!p.body.isEmpty && !p.bodyFile.isEmpty) .bodyTwice
  refuseIf (!p.certPath.isEmpty && p.keyPath.isEmpty) .missingKey
  refuseIf (p.certPath.isEmpty && !p.keyPath.isEmpty) .missingCertificate
  p.checkRate

/-- The rule about the URL: it has to split, and to lead somewhere over
HTTP. -/
def checkUrl (p : Plan) : Except PlanError Unit :=
  match Url.split p.url with
  | .error cause => .error (.refusedUrl cause)
  | .ok target => refuseIf (!Url.isHttp target) (.invalidUrl p.url)

/-- Objects to the first field that is not as it should be. -/
def validate (p : Plan) : Except PlanError Unit := do
  p.checkFields
  p.checkUrl

theorem refuseIf_eq_ok_iff {condition : Bool} {error : PlanError} :
    refuseIf condition error = .ok () ↔ condition = false := by
  cases condition <;> simp [refuseIf]

theorem refuseNumberIf_eq_ok_iff {condition : Bool} {error : Number → PlanError}
    {found : Number} : refuseNumberIf condition error found = .ok () ↔ condition = false :=
  refuseIf_eq_ok_iff

end Plan
end LoadReport
