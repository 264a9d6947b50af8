/-!
# Stretches of time and time zones

A stretch of time is a number of days, which may be negative, with seconds of
a day and microseconds of a second, which may not: a second less than nothing
is a day less with 86399 seconds.

A time zone is the distance of its clocks from world time. It may have a name
of its own; otherwise it is named for the distance.
-/

namespace LoadReport
namespace Calendar

/-- The digits of a number, with zeros in front up to a width. -/
def padded (width n : Nat) : String :=
  let digits := Nat.toDigits 10 n
  String.ofList (List.replicate (width - digits.length) '0' ++ digits)

/-! ## Stretches of time -/

structure Span where
  days : Int
  seconds : Nat := 0
  microseconds : Nat := 0
deriving DecidableEq, Repr

namespace Span

/-- The longest stretch that days with nine digits hold. -/
def longest : Span := { days := 999999999, seconds := 86399, microseconds := 999999 }

/-- The stretch that is furthest below nothing. -/
def lowest : Span := { days := -999999999 }

/-- The shortest stretch above nothing. -/
def shortest : Span := { days := 0, microseconds := 1 }

def day : Span := { days := 1 }

def ofMinutes (minutes : Int) : Span :=
  { days := minutes / 1440, seconds := (minutes % 1440).toNat * 60 }

/-- The written form: days, if there are any, and a time of day. -/
def text (s : Span) : String :=
  let days :=
    if s.days = 0 then ""
    else toString s.days ++ (if s.days.natAbs = 1 then " day, " else " days, ")
  let time := toString (s.seconds / 3600) ++ ":" ++ padded 2 (s.seconds / 60 % 60) ++ ":" ++
    padded 2 (s.seconds % 60)
  days ++ time ++ (if s.microseconds = 0 then "" else "." ++ padded 6 s.microseconds)

/-- The form that tells the parts apart; parts that are zero are left out. -/
def literal (s : Span) : String :=
  let part (name : String) (n : Int) : List String :=
    if n = 0 then [] else [name ++ "=" ++ toString n]
  let parts := part "days" s.days ++ part "seconds" s.seconds ++ part "microseconds" s.microseconds
  "datetime.timedelta(" ++ (if parts.isEmpty then "0" else String.intercalate ", " parts) ++ ")"

end Span

/-! ## Time zones -/

inductive Zone
  /-- World time itself. -/
  | universal
  /-- A number of minutes ahead of world time. -/
  | ahead (minutes : Int) (name : Option String)
deriving DecidableEq, Repr

namespace Zone

/-- The minutes by which the clocks of a zone are ahead of world time. -/
def minutes : Zone → Int
  | universal => 0
  | ahead minutes _ => minutes

/-- The zone of a clock that shows world time. -/
def world : Zone := .ahead 0 (some "UTC")

/-- The zone furthest behind world time. -/
def rearmost : Zone := .ahead (-1439) none

/-- The zone furthest ahead of world time. -/
def foremost : Zone := .ahead 1439 none

/-- The distance from world time in hours and minutes. -/
def distance (separator : String) (z : Zone) : String :=
  let size := z.minutes.natAbs
  (if z.minutes < 0 then "-" else "+") ++ padded 2 (size / 60) ++ separator ++
    padded 2 (size % 60)

def name (z : Zone) : String :=
  match z with
  | ahead _ (some name) => name
  | _ => if z.minutes = 0 then "UTC" else "UTC" ++ z.distance ":"

/-- The form that tells the parts of a zone apart. -/
def literal : Zone → String
  | universal => "datetime.timezone.utc"
  | ahead minutes name =>
      "datetime.timezone(" ++ (Span.ofMinutes minutes).literal ++
        (match name with
        | some name => ", '" ++ name ++ "'"
        | none => "") ++ ")"

end Zone
end Calendar
end LoadReport
