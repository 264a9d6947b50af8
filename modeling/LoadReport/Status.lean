/-!
# Status classes and their tally

A response is filed under one of six classes by its status code: the
hundreds digit for codes 100 to 599, and "others" for everything else,
which is where transport failures (recorded with code 0) land.

A **tally** adds up the counts of a code table class by class. It holds
one counter more than there are classes: bad gateway responses (502) are
counted once among the server errors and once more on their own. So the
six class counters partition the table, and the seventh repeats a part of
one of them.
-/

namespace LoadReport

/-- What a status code says about the response. -/
inductive StatusClass
  | informational
  | success
  | redirection
  | clientError
  | serverError
  | others
deriving DecidableEq, Repr

namespace StatusClass

/-- All classes, in the order in which reports list them. -/
def all : List StatusClass :=
  [informational, success, redirection, clientError, serverError, others]

def name : StatusClass → String
  | informational => "INFORMATIONAL"
  | success => "SUCCESS"
  | redirection => "REDIRECTION"
  | clientError => "CLIENT_ERROR"
  | serverError => "SERVER_ERROR"
  | others => "OTHERS"

/-- The short label under which counters of the class are reported. -/
def label : StatusClass → String
  | informational => "1xx"
  | success => "2xx"
  | redirection => "3xx"
  | clientError => "4xx"
  | serverError => "5xx"
  | others => "others"

/-- Codes are classed by hundreds from 100 to 599. -/
def ofCode (code : Int) : StatusClass :=
  if code < 100 then others
  else if code < 200 then informational
  else if code < 300 then success
  else if code < 400 then redirection
  else if code < 500 then clientError
  else if code < 600 then serverError
  else others

end StatusClass

def badGateway : Int := 502

/-- Counters by status class, with the bad gateway responses once more on
their own. -/
structure Tally where
  informational : Int := 0
  success : Int := 0
  redirection : Int := 0
  clientError : Int := 0
  serverError : Int := 0
  badGateway : Int := 0
  others : Int := 0
deriving DecidableEq, Repr

namespace Tally

def count (t : Tally) : StatusClass → Int
  | .informational => t.informational
  | .success => t.success
  | .redirection => t.redirection
  | .clientError => t.clientError
  | .serverError => t.serverError
  | .others => t.others

/-- Each class with its counter, in report order. The bad gateway counter
is left out: its responses are counted under server errors already. -/
def byClass (t : Tally) : List (StatusClass × Int) :=
  StatusClass.all.map fun c => (c, t.count c)

/-- Adds to the counter of one class. -/
def credit (t : Tally) (amount : Int) : StatusClass → Tally
  | .informational => { t with informational := t.informational + amount }
  | .success => { t with success := t.success + amount }
  | .redirection => { t with redirection := t.redirection + amount }
  | .clientError => { t with clientError := t.clientError + amount }
  | .serverError => { t with serverError := t.serverError + amount }
  | .others => { t with others := t.others + amount }

/-- Files one line of a code table. -/
def file (t : Tally) (code amount : Int) : Tally :=
  let t := t.credit amount (.ofCode code)
  if code = LoadReport.badGateway then
    { t with badGateway := t.badGateway + amount }
  else
    t

/-- The tally of a table from codes to counts. -/
def ofCodes (codes : List (Int × Int)) : Tally :=
  codes.foldl (fun t line => t.file line.1 line.2) {}

/-! ## What filing one line does to each counter -/

theorem count_credit (t : Tally) (amount : Int) (c d : StatusClass) :
    (t.credit amount c).count d = t.count d + if c = d then amount else 0 := by
  cases c <;> cases d <;> simp [credit, count]

theorem count_file (t : Tally) (code amount : Int) (d : StatusClass) :
    (t.file code amount).count d
      = t.count d + if StatusClass.ofCode code = d then amount else 0 := by
  rw [← count_credit]
  unfold file
  split <;> cases d <;> rfl

theorem badGateway_credit (t : Tally) (amount : Int) (c : StatusClass) :
    (t.credit amount c).badGateway = t.badGateway := by
  cases c <;> rfl

theorem badGateway_file (t : Tally) (code amount : Int) :
    (t.file code amount).badGateway
      = t.badGateway + if code = LoadReport.badGateway then amount else 0 := by
  unfold file
  split <;> simp [badGateway_credit]

end Tally
end LoadReport
