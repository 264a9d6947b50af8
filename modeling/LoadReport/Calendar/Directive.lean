import LoadReport.Calendar.Basic
import LoadReport.Calendar.Span
import LoadReport.Number.Text
import LoadReport.Text.UpperCase

/-!
# Percent directives

A layout of moments is text with directives, each of which stands for a part
of a moment:

    %[flags][width][modifier]code

* The flags `_`, `-` and `0` say how numbers are padded: with blanks, not at
  all, or with zeros; the last of them counts. `^` asks for capitals, and `#`
  for the other case than the usual one.
* What is shorter than the width is filled up at its left, with zeros if that
  flag is given and with blanks otherwise.
* The modifiers `E` and `O` ask for other calendars and digits. There are none
  here, so they change nothing, but not every code admits them.

What is no directive stands for itself, and is filled up nevertheless.

Fractions of a second and time zones are put in first, wherever their codes
follow a percent sign immediately. A layout ends at a character zero. Text
that comes out much longer than its layout is given up altogether.
-/

namespace LoadReport
namespace Calendar

/-! ## Directives -/

structure Directive where
  padding : Option Char := none
  capitals : Bool := false
  swapped : Bool := false
  width : Nat := 0
  modifier : Option Char := none
  /-- There is none if the layout ends before it. -/
  code : Option Char := none
  /-- The directive as it is written. -/
  written : List Char := []
deriving DecidableEq, Repr

namespace Directive

def isPadding (c : Char) : Bool := c == '_' || c == '-' || c == '0'

def isFlag (c : Char) : Bool := isPadding c || c == '^' || c == '#'

def splitModifier : List Char → Option Char × List Char
  | c :: rest => if c = 'E' ∨ c = 'O' then (some c, rest) else (none, c :: rest)
  | [] => (none, [])

/-- Reads what follows a percent sign, and what is left. Widths from `limit`
on make no difference. -/
def read (limit : Nat) (text : List Char) : Directive × List Char :=
  let flags := text.takeWhile isFlag
  let rest := text.dropWhile isFlag
  let digits := rest.takeWhile Char.isDigit
  let (modifier, rest) := splitModifier (rest.dropWhile Char.isDigit)
  ({ padding := (flags.filter isPadding).getLast?
     capitals := flags.contains '^'
     swapped := flags.contains '#'
     width := min limit (Nat.ofDigitChars 10 digits 0)
     modifier
     code := rest.head?
     written := '%' :: (flags ++ digits ++ modifier.toList ++ rest.head?.toList) }, rest.tail)

def admitsModifier (d : Directive) : Bool :=
  match d.modifier, d.code with
  | none, _ => true
  | some modifier, some code =>
      "Cy%ntpPrRTsuzZ".toList.contains code ||
        (if modifier = 'E' then "cxXY" else "BbhdeHIjklmMSUVWwgG").toList.contains code
  | some _, none => false

/-- Fills a text up at its left. -/
def fill (d : Directive) (text : List Char) : List Char :=
  List.replicate (d.width - text.length) (if d.padding = some '0' then '0' else ' ') ++ text

def capital (c : Char) : Char :=
  match Text.capitals c with
  | [single] => single
  | _ => c

def inCase (d : Directive) (text : List Char) : List Char :=
  if d.capitals then text.map capital else text

end Directive

/-! ## Parts of a moment -/

/-- What a code stands for. -/
inductive Part
  /-- A number with at least so many digits. -/
  | number (digits value : Nat)
  /-- A number of two places, with a blank in front rather than a zero. -/
  | blankPadded (value : Nat)
  /-- Seconds, which may be before the epoch. -/
  | seconds (count : Int)
  /-- A word, and the same in the other case. -/
  | word (text other : String)
  /-- Text that has no case. -/
  | verbatim (text : String)
  /-- Several parts. -/
  | layout (text : String)
  /-- The name of a time zone that was not put in first. -/
  | noZone
  /-- The distance of a time zone that was not put in first. -/
  | noDistance
deriving DecidableEq, Repr

/-- A name, which has capitals as its other case. -/
def Part.ofName (name : String) : Part := .word name (Text.upperCase name)

/-- The first three letters of a name. -/
def abbreviated (name : String) : String := String.ofList (name.toList.take 3)

def Moment.half (m : Moment) : String := if m.hour < 12 then "AM" else "PM"

/-- The half of the day in small letters. -/
def Moment.smallHalf (m : Moment) : String := if m.hour < 12 then "am" else "pm"

/-- The part of a moment that a code stands for. -/
def Moment.part? (m : Moment) : Char → Option Part
  | 'a' => some (.ofName (abbreviated m.dayName))
  | 'A' => some (.ofName m.dayName)
  | 'b' | 'h' => some (.ofName (abbreviated m.monthName))
  | 'B' => some (.ofName m.monthName)
  | 'C' => some (.number 1 (m.year / 100))
  | 'd' => some (.number 2 m.day)
  | 'e' => some (.blankPadded m.day)
  | 'g' => some (.number 2 (m.weekYear % 100))
  | 'G' => some (.number 1 m.weekYear)
  | 'H' => some (.number 2 m.hour)
  | 'I' => some (.number 2 m.dialHour)
  | 'j' => some (.number 3 m.dayOfYear)
  | 'k' => some (.blankPadded m.hour)
  | 'l' => some (.blankPadded m.dialHour)
  | 'm' => some (.number 2 m.month)
  | 'M' => some (.number 2 m.minute)
  | 'n' => some (.verbatim "\n")
  | 'p' => some (.word m.half m.smallHalf)
  | 'P' => some (.verbatim m.smallHalf)
  | 's' => some (.seconds m.epochSeconds)
  | 'S' => some (.number 2 m.second)
  | 't' => some (.verbatim "\t")
  | 'u' => some (.number 1 (m.weekday + 1))
  | 'U' => some (.number 2 m.weekFromSunday)
  | 'V' => some (.number 2 m.week)
  | 'w' => some (.number 1 ((m.weekday + 1) % 7))
  | 'W' => some (.number 2 m.weekFromMonday)
  | 'y' => some (.number 2 (m.year % 100))
  | 'Y' => some (.number 1 m.year)
  | 'z' => some .noDistance
  | 'Z' => some .noZone
  | '%' => some (.verbatim "%")
  | 'c' => some (.layout "%a %b %e %H:%M:%S %Y")
  | 'D' | 'x' => some (.layout "%m/%d/%y")
  | 'F' => some (.layout "%Y-%m-%d")
  | 'r' => some (.layout "%I:%M:%S %p")
  | 'R' => some (.layout "%H:%M")
  | 'T' | 'X' => some (.layout "%H:%M:%S")
  | _ => none

namespace Directive

def writeNumber (d : Directive) (usual : Char) (digits value : Nat) : List Char :=
  let figures := Nat.toDigits 10 value
  let missing := max digits d.width - figures.length
  match d.padding with
  | some '-' => d.fill figures
  | some '_' => List.replicate missing ' ' ++ figures
  | some _ => List.replicate missing '0' ++ figures
  | none => List.replicate missing usual ++ figures

/-- A part as a directive wants it, given how layouts are filled in. -/
def writePart (d : Directive) (fillIn : List Char → List Char) : Part → List Char
  | .number digits value => d.writeNumber '0' digits value
  | .blankPadded value => d.writeNumber ' ' 2 value
  | .seconds count => d.fill (Number.writeInt count)
  | .word text other => d.fill (if d.swapped then other.toList else d.inCase text.toList)
  | .verbatim text => d.fill text.toList
  | .layout text => d.fill (d.inCase (fillIn text.toList))
  | .noZone => d.fill []
  | .noDistance => []

/-- A directive that stands for itself. The flag for the other case is heeded
there only if a short name of a month is asked for. -/
def writeItself (d : Directive) : List Char :=
  let ofMonth := d.code = some 'b' ∨ d.code = some 'h'
  d.fill ({ d with capitals := d.capitals || (d.swapped && ofMonth) }.inCase d.written)

def write (m : Moment) (fillIn : List Char → List Char) (d : Directive) : List Char :=
  match d.code.bind m.part? with
  | some part => if d.admitsModifier then d.writePart fillIn part else d.writeItself
  | none => d.writeItself

end Directive

/-! ## Layouts -/

/-- Fills in a layout of plain parts, each named by a code alone. -/
def Moment.fillPlain (m : Moment) : List Char → List Char
  | '%' :: code :: rest => Directive.write m id { code := some code } ++ m.fillPlain rest
  | c :: rest => c :: m.fillPlain rest
  | [] => []

/-- Fills in the directives of a layout, in at most as many steps as it has
characters. -/
def Moment.fillWithin (m : Moment) (limit : Nat) : Nat → List Char → List Char
  | 0, _ => []
  | fuel + 1, text =>
      match text with
      | [] => []
      | '%' :: rest =>
          let (d, tail) := Directive.read limit rest
          d.write m m.fillPlain ++ m.fillWithin limit fuel tail
      | c :: rest => c :: m.fillWithin limit fuel rest

/-- Puts in fractions of a second and the time zone, if there is one. -/
def Moment.insertZone (m : Moment) (zone : Option Zone) : List Char → List Char
  | '%' :: code :: rest =>
      let part :=
        if code = 'z' then zone.elim [] fun z => (z.distance "").toList
        else if code = 'Z' then
          zone.elim [] fun z => z.name.toList.flatMap fun c => if c = '%' then ['%', '%'] else [c]
        else if code = 'f' then (padded 6 m.microsecond).toList
        else ['%', code]
      part ++ m.insertZone zone rest
  | c :: rest => c :: m.insertZone zone rest
  | [] => []

/-- The length from which on a text is too long for its layout: the first of
1024, 2048, 4096 and so on that is 256 times as long as the layout. -/
def capacity (length : Nat) : Nat :=
  if length ≤ 4 then 1024 else 1024 * 2 ^ (Nat.log2 ((length - 1) / 4) + 1)

/-- A moment in a layout. -/
def Moment.inLayout (m : Moment) (zone : Option Zone) (layout : List Char) : List Char :=
  let layout := m.insertZone zone (layout.takeWhile (· != '\x00'))
  let limit := capacity layout.length
  let text := m.fillWithin limit layout.length layout
  if text.length < limit then text else []

end Calendar
end LoadReport
