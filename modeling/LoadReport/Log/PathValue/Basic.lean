import LoadReport.Calendar.LetterCode
import LoadReport.Log.PathValue.Member
import LoadReport.Template.Expansion
import LoadReport.Text.Quoted

/-!
# Values in the paths of log files

The path of a log file may show the time at which the file is opened, and
whatever that time leads to: the time as a date with a zone, the limits of the
calendar, the parts of a date, stretches of time, what kind of value each of
them is, what its kind lets it do, and so on. `PathValue` is what can be
reached in this way.

A value has a usual written form and a literal one, in which its parts are
told apart. The two differ for texts, for views and for what the calendar
knows; whatever stands inside of another value is always literal. Where a form names the place
of a value in memory, a place stands there that is the same for all values.
-/

namespace LoadReport
open Calendar

/-- What a field of a path may stand for. -/
inductive PathValue
  /-- The time of opening, written as file names need it. -/
  | opening
  /-- The same time as a date with a zone. -/
  | instant
  /-- A date without a zone. -/
  | date (m : Moment)
  /-- The day of a moment. -/
  | day (m : Moment)
  | span (s : Span)
  | zone (z : Zone)
  | whole (n : Int)
  | flag (b : Bool)
  | text (t : String)
  | nothing
  | row (items : List PathValue)
  | record (fields : List (String × PathValue))
  | view (fields : List (String × PathValue))
  | kind (k : PathKind)
  /-- A kind with a choice of what it is to hold. -/
  | selection (k : PathKind) (choice : List PathValue)
  /-- A member of a kind, before it is known which value it is for. -/
  | entry (owner : PathKind) (sort : MemberSort) (name : String)
  /-- A member of a kind that is tied to a value. -/
  | bound (owner : PathKind) (sort : MemberSort) (name : String) (self : PathValue)
  /-- The steps of a routine. -/
  | code (owner : PathKind) (name : String)
deriving Inhabited

namespace PathValue

def kindOf : PathValue → PathKind
  | opening => .opening
  | instant => .instant
  | date _ => .date
  | day _ => .day
  | span _ => .span
  | zone _ => .zone
  | whole _ => .whole
  | flag _ => .flag
  | text _ => .text
  | nothing => .nothing
  | row _ => .row
  | record _ => .record
  | view _ => .view
  | kind _ => .kind
  | selection _ _ => .selection
  | entry _ sort _ =>
      match sort with
      | .operator => .operatorEntry
      | .kindMethod => .makerEntry
      | .reading => .readingEntry
      | .field => .fieldEntry
      | .routine => .routine
      | _ => .methodEntry
  | bound _ sort _ _ =>
      match sort with
      | .operator => .operator
      | .routine => .boundRoutine
      | _ => .method
  | code _ _ => .code

/-! ## Parts of dates in writing -/

/-- Where all values lie in memory. -/
def place : String := "0x7f0000000000"

def dayText (m : Moment) : String :=
  padded 4 m.year ++ "-" ++ padded 2 m.month ++ "-" ++ padded 2 m.day

def dateText (m : Moment) : String :=
  dayText m ++ " " ++
    padded 2 m.hour ++ ":" ++ padded 2 m.minute ++ ":" ++ padded 2 m.second ++
    (if m.microsecond = 0 then "" else "." ++ padded 6 m.microsecond)

def dayParts (m : Moment) : List String := [m.year, m.month, m.day].map toString

/-- The parts of a date in a row; seconds and fractions of them are left out
if nothing but zeros would follow. -/
def dateParts (m : Moment) : List String :=
  let tail :=
    if m.microsecond ≠ 0 then [m.second, m.microsecond]
    else if m.second ≠ 0 then [m.second]
    else []
  dayParts m ++ ([m.hour, m.minute] ++ tail).map toString

/-- What is made of parts by a name. -/
def made (name : String) (parts : List String) : String :=
  name ++ "(" ++ String.intercalate ", " parts ++ ")"

/-! ## Members in writing -/

/-- The name of a member behind the name of its kind. -/
def qualified (owner : PathKind) (name : String) : String := owner.ownName ++ "." ++ name

/-- A member of a kind, before it is known which value it is for. -/
def entryText (owner : PathKind) (sort : MemberSort) (name : String) : String :=
  let of (word : String) : String :=
    "<" ++ word ++ " '" ++ name ++ "' of '" ++ owner.name ++ "' objects>"
  match sort with
  | .operator => of "slot wrapper"
  | .reading => of "attribute"
  | .field => of "member"
  | .routine => "<function " ++ qualified owner name ++ " at " ++ place ++ ">"
  | _ => of "method"

/-- A member of a kind that is tied to a value of a kind. -/
def boundText (owner : PathKind) (sort : MemberSort) (name : String) (self : PathKind)
    (written : String) : String :=
  match sort with
  | .operator =>
      "<method-wrapper '" ++ name ++ "' of " ++ self.name ++ " object at " ++ place ++ ">"
  | .routine => "<bound method " ++ qualified owner name ++ " of " ++ written ++ ">"
  | _ => "<built-in method " ++ name ++ " of " ++ self.name ++ " object at " ++ place ++ ">"

/-! ## Literal forms -/

mutual

/-- How a value is written with all its parts told apart, if `clock` is the
time of opening. -/
def literal (clock : Moment) : PathValue → String
  | opening => "<" ++ PathKind.opening.fullName ++ " object at " ++ place ++ ">"
  | instant =>
      made PathKind.instant.name (dateParts clock ++ ["tzinfo=" ++ Zone.world.literal])
  | date m => made PathKind.date.name (dateParts m)
  | day m => made PathKind.day.name (dayParts m)
  | span s => s.literal
  | zone z => z.literal
  | whole n => toString n
  | flag b => if b then "True" else "False"
  | text t => Text.quoted t
  | nothing => "None"
  | row items => "(" ++ literals clock items ++ (if items.length = 1 then ",)" else ")")
  | record fields => "\x7b" ++ fieldLiterals clock fields ++ "\x7d"
  | view fields => PathKind.view.name ++ "(\x7b" ++ fieldLiterals clock fields ++ "\x7d)"
  | kind k => "<class '" ++ k.fullName ++ "'>"
  | selection k choice => k.fullName ++ "[" ++ literals clock choice ++ "]"
  | entry owner sort name => entryText owner sort name
  | bound owner sort name self => boundText owner sort name self.kindOf (self.literal clock)
  | code owner name =>
      "<code object " ++ name ++ " at " ++ place ++ ", file \"" ++ owner.home.getD "" ++
        "\", line 1>"

def literals (clock : Moment) : List PathValue → String
  | [] => ""
  | [v] => v.literal clock
  | v :: rest => v.literal clock ++ ", " ++ literals clock rest

def fieldLiterals (clock : Moment) : List (String × PathValue) → String
  | [] => ""
  | [(name, v)] => Text.quoted name ++ ": " ++ v.literal clock
  | (name, v) :: rest =>
      Text.quoted name ++ ": " ++ v.literal clock ++ ", " ++ fieldLiterals clock rest

end

/-! ## Usual forms -/

/-- How a value is usually written, if `clock` is the time of opening. -/
def display (clock : Moment) : PathValue → String
  | instant => dateText clock ++ Zone.world.distance ":"
  | date m => dateText m
  | day m => dayText m
  | span s => s.text
  | zone z => z.name
  | text t => t
  | view fields => (record fields).literal clock
  | v => v.literal clock

/-- The text that a value is converted to. -/
def convert (clock : Moment) (conversion : Template.Conversion) (v : PathValue) : PathValue :=
  match conversion with
  | .display => .text (v.display clock)
  | .literal => .text (v.literal clock)
  | .asciiLiteral => .text (Text.inAscii (v.literal clock))

end PathValue
end LoadReport
