import LoadReport.Calendar.Directive

/-!
# Letter codes

A pattern of moments is text in which certain runs of letters stand for parts
of a moment: `YYYY-MM-DD` for a day, `HH:mm:ss.SSS` for a time of day. Where
several codes fit, the longest one is meant. A code between brackets stands
for itself, without the brackets; so do nothing and the demand for world time
between brackets, and all other text with the brackets around it.

A pattern with a percent sign is no such text but a layout of directives. The
moments are of world time already, so a demand for world time at the end of a
pattern is dropped.
-/

namespace LoadReport
namespace Calendar

/-- A number in digits, with zeros in front up to a width. -/
def digitsOf (width n : Nat) : List Char := (padded width n).toList

/-- The codes with the parts that they stand for; a code comes before those
that it starts with. -/
def letterCodes : List (String × (Moment → List Char)) :=
  [("HH", fun m => digitsOf 2 m.hour), ("H", fun m => digitsOf 1 m.hour),
   ("hh", fun m => digitsOf 2 m.dialHour), ("h", fun m => digitsOf 1 m.dialHour),
   ("mm", fun m => digitsOf 2 m.minute), ("m", fun m => digitsOf 1 m.minute),
   ("ss", fun m => digitsOf 2 m.second), ("s", fun m => digitsOf 1 m.second),
   ("SSSSSS", fun m => digitsOf 6 m.microsecond),
   ("SSSSS", fun m => digitsOf 5 (m.microsecond / 10)),
   ("SSSS", fun m => digitsOf 4 (m.microsecond / 100)),
   ("SSS", fun m => digitsOf 3 (m.microsecond / 1000)),
   ("SS", fun m => digitsOf 2 (m.microsecond / 10000)),
   ("S", fun m => digitsOf 1 (m.microsecond / 100000)),
   ("YYYY", fun m => digitsOf 4 m.year), ("YY", fun m => digitsOf 2 (m.year % 100)),
   ("MMMM", fun m => m.monthName.toList), ("MMM", fun m => (abbreviated m.monthName).toList),
   ("MM", fun m => digitsOf 2 m.month), ("M", fun m => digitsOf 1 m.month),
   ("DDDD", fun m => digitsOf 3 m.dayOfYear), ("DDD", fun m => digitsOf 1 m.dayOfYear),
   ("DD", fun m => digitsOf 2 m.day), ("D", fun m => digitsOf 1 m.day),
   ("ZZ", fun _ => (Zone.world.distance "").toList),
   ("Z", fun _ => (Zone.world.distance ":").toList),
   ("zz", fun _ => Zone.world.name.toList), ("A", fun m => m.half.toList),
   ("X", fun m => Number.writeInt m.epochSeconds),
   ("x", fun m => Number.writeInt (m.epochSeconds * 1000000 + 2 * m.microsecond)),
   ("E", fun m => digitsOf 1 (m.weekday + 1)), ("Q", fun m => digitsOf 1 ((m.month + 2) / 3)),
   ("dddd", fun m => m.dayName.toList), ("ddd", fun m => (abbreviated m.dayName).toList),
   ("d", fun m => digitsOf 1 m.weekday)]

/-- The demand for world time. -/
def worldTime : String := "!UTC"

/-- The text between brackets that stands for itself, behind the opening
bracket. -/
def shielded? (text : List Char) : Option (List Char) :=
  let inside := text.takeWhile (· != ']')
  let word := String.ofList inside
  if inside.length < text.length &&
      (inside.isEmpty || word == worldTime || letterCodes.any fun code => code.1 == word) then
    some inside
  else
    none

/-- The code that a text starts with, if there is one: what it stands for,
and its length. -/
def leadingCode? (m : Moment) (text : List Char) : Option (List Char × Nat) :=
  (letterCodes.find? fun code => code.1.toList.isPrefixOf text).map
    fun code => (code.2 m, code.1.length)

/-- Fills in a pattern; the first `skip` characters are used up. -/
def Moment.fillPattern (m : Moment) (skip : Nat) : List Char → List Char
  | [] => []
  | c :: rest =>
      match skip with
      | skip + 1 => m.fillPattern skip rest
      | 0 =>
          match if c = '[' then shielded? rest else none with
          | some inside => inside ++ m.fillPattern (inside.length + 1) rest
          | none =>
              match leadingCode? m (c :: rest) with
              | some (part, length) => part ++ m.fillPattern (length - 1) rest
              | none => c :: m.fillPattern 0 rest

/-- More digits of a second than there are. -/
def tooManyDigits : List Char := "SSSSSSS".toList

/-- Whether a text stands somewhere in another one. -/
def occursIn (part : List Char) : List Char → Bool
  | [] => part.isEmpty
  | c :: rest => part.isPrefixOf (c :: rest) || occursIn part rest

/-- The pattern that is used instead of an empty one. -/
def usualPattern : List Char := "%Y-%m-%dT%H:%M:%S.%f%z".toList

def dropWorldTime (pattern : List Char) : List Char :=
  if worldTime.toList.isSuffixOf pattern then
    pattern.take (pattern.length - worldTime.length)
  else
    pattern

/-- A moment of world time in a pattern; none if more digits of a second are
asked for than there are. -/
def Moment.inPattern? (m : Moment) (pattern : List Char) : Option (List Char) :=
  let pattern := dropWorldTime pattern
  let pattern := if pattern.isEmpty then usualPattern else pattern
  if pattern.contains '%' then some (m.inLayout (some .world) pattern)
  else if occursIn tooManyDigits pattern then none
  else some (m.fillPattern 0 pattern)

end Calendar
end LoadReport
