import LoadReport.Text.DecimalDigit
import LoadReport.Text.Quoted

/-!
# Specifications of layout

How a text or a number is to be laid out is written in a few characters:

    [[fill]alignment][sign][z][#][0][width][separator][.precision][code]

* The alignment is one of `<`, `>`, `^` and `=`, the last of which puts the
  filling between a sign and the digits; the fill is any character before it.
* A zero before the width asks for zeros as filling, behind the sign where
  numbers are concerned.
* The separator is a comma or a line below, and stands between groups of
  digits.
* The code says how a value is written, for instance in which base.

`Specification.read?` takes such a text apart. Which parts make sense depends
on what is laid out, so most objections are raised by those who write; only a
separator is held against the code at once.
-/

namespace LoadReport
namespace Format

/-- Where a value stands in the width that it is given. -/
inductive Alignment
  | left
  | right
  | centre
  /-- At the right, with a sign at the left. -/
  | split
deriving DecidableEq, Repr

def Alignment.ofChar? (c : Char) : Option Alignment :=
  if c = '<' then some .left
  else if c = '>' then some .right
  else if c = '^' then some .centre
  else if c = '=' then some .split
  else none

/-- What may be laid out. -/
inductive Kind
  | text
  | whole
deriving DecidableEq, Repr

namespace Kind

def name : Kind → String
  | text => "str"
  | whole => "int"

/-- The code that is meant if there is none. -/
def code : Kind → Char
  | text => 's'
  | whole => 'd'

/-- The alignment that is meant if there is none. -/
def alignment : Kind → Alignment
  | text => .left
  | whole => .right

end Kind

/-- What may be wrong with a specification. -/
inductive Fault
  | numberTooLarge
  | twoSeparators
  | missingPrecision
  /-- Something is left over behind the code. -/
  | malformed (specification : String) (kind : Kind)
  | misplacedSeparator (separator code : Char)
  | unknownCode (code : Char) (kind : Kind)
  | signOfText
  | blankForText
  | negativeZeroOfText
  | alternateText
  | splitText
  | precisionOfWhole
  | negativeZeroOfWhole
  | signOfCharacter
  | alternateCharacter
  /-- No character has the number. -/
  | noCharacter
  | precisionTooLarge
  /-- What would be written is too long to be held. -/
  | tooLong
deriving DecidableEq, Repr

/-- The spelling of a code in a message. -/
def codeText (code : Char) : String := Text.shownBelow 128 code

def Fault.message : Fault → String
  | numberTooLarge => "Too many decimal digits in format string"
  | twoSeparators => "Cannot specify both ',' and '_'."
  | missingPrecision => "Format specifier missing precision"
  | malformed specification kind =>
      "Invalid format specifier '" ++ specification ++ "' for object of type '" ++ kind.name ++ "'"
  | misplacedSeparator separator code =>
      "Cannot specify '" ++ separator.toString ++ "' with '" ++ codeText code ++ "'."
  | unknownCode code kind =>
      "Unknown format code '" ++ codeText code ++ "' for object of type '" ++ kind.name ++ "'"
  | signOfText => "Sign not allowed in string format specifier"
  | blankForText => "Space not allowed in string format specifier"
  | negativeZeroOfText => "Negative zero coercion (z) not allowed in string format specifier"
  | alternateText => "Alternate form (#) not allowed in string format specifier"
  | splitText => "'=' alignment not allowed in string format specifier"
  | precisionOfWhole => "Precision not allowed in integer format specifier"
  | negativeZeroOfWhole => "Negative zero coercion (z) not allowed in integer format specifier"
  | signOfCharacter => "Sign not allowed with integer format specifier 'c'"
  | alternateCharacter => "Alternate form (#) not allowed with integer format specifier 'c'"
  | noCharacter => "%c arg not in range(0x110000)"
  | precisionTooLarge => "precision too big"
  | tooLong => ""

structure Specification where
  fill : Char
  alignment : Alignment
  sign : Option Char
  negativeZero : Bool
  alternate : Bool
  width : Nat
  separator : Option Char
  precision : Option Nat
  code : Char
deriving DecidableEq, Repr

/-! ## Reading -/

/-- Splits off the fill and the alignment. -/
def splitAlignment : List Char → Option Char × Option Alignment × List Char
  | fill :: c :: rest =>
      match Alignment.ofChar? c, Alignment.ofChar? fill with
      | some alignment, _ => (some fill, some alignment, rest)
      | none, some alignment => (none, some alignment, c :: rest)
      | none, none => (none, none, fill :: c :: rest)
  | [c] =>
      match Alignment.ofChar? c with
      | some alignment => (none, some alignment, [])
      | none => (none, none, [c])
  | [] => (none, none, [])

def splitSign : List Char → Option Char × List Char
  | c :: rest => if c = '+' ∨ c = '-' ∨ c = ' ' then (some c, rest) else (none, c :: rest)
  | [] => (none, [])

/-- Splits off a certain character. -/
def splitMark (mark : Char) : List Char → Bool × List Char
  | c :: rest => if c = mark then (true, rest) else (false, c :: rest)
  | [] => (false, [])

def readSeparator : List Char → Except Fault (Option Char × List Char)
  | ',' :: '_' :: _ => .error .twoSeparators
  | '_' :: ',' :: _ => .error .twoSeparators
  | ',' :: rest => .ok (some ',', rest)
  | '_' :: rest => .ok (some '_', rest)
  | rest => .ok (none, rest)

/-- Reads a number; no digits make zero. -/
def readNumber (text : List Char) : Except Fault (Nat × List Char) :=
  match Text.readNumber? 0 text with
  | some result => .ok result
  | none => .error .numberTooLarge

def readPrecision : List Char → Except Fault (Option Nat × List Char)
  | '.' :: text => do
      let (precision, rest) ← readNumber text
      if rest.length = text.length then .error .missingPrecision
      else .ok (some precision, rest)
  | text => .ok (none, text)

/-- Holds a separator against the code. -/
def checkSeparator (separator : Option Char) (code : Char) : Except Fault Unit :=
  match separator with
  | none => .ok ()
  | some mark =>
      if "defgEG%F\x00".toList.contains code then .ok ()
      else if mark = '_' ∧ "boxX".toList.contains code then .ok ()
      else .error (.misplacedSeparator mark code)

def Specification.read (kind : Kind) (text : List Char) : Except Fault Specification := do
  let (fill, alignment, rest) := splitAlignment text
  let (sign, rest) := splitSign rest
  let (negativeZero, rest) := splitMark 'z' rest
  let (alternate, rest) := splitMark '#' rest
  let (zero, rest) := if fill.isSome then (false, rest) else splitMark '0' rest
  let (width, rest) ← readNumber rest
  let (separator, rest) ← readSeparator rest
  let (precision, rest) ← readPrecision rest
  if 1 < rest.length then
    .error (.malformed (String.ofList text) kind)
  let code := rest.headD kind.code
  checkSeparator separator code
  .ok {
    fill := if zero then '0' else fill.getD ' '
    alignment := alignment.getD (if zero ∧ kind = .whole then .split else kind.alignment)
    sign, negativeZero, alternate, width, separator, precision, code }

/-! ## Filling -/

/-- The longest text that can be held. -/
def maxLength : Nat := 2 ^ 24

/-- A text with filling on both sides, up to a width. Filling that cannot be
shared evenly is longer on the right of a centred text. -/
def Specification.pad (s : Specification) (text : List Char) : List Char :=
  let missing := s.width - text.length
  let before :=
    match s.alignment with
    | .left => 0
    | .centre => missing / 2
    | .right | .split => missing
  List.replicate before s.fill ++ text ++ List.replicate (missing - before) s.fill

/-- Filling brings a text to the width at least. -/
theorem Specification.length_pad (s : Specification) (text : List Char) :
    (s.pad text).length = max s.width text.length := by
  have hbefore : ∀ missing : Nat, (match s.alignment with
      | .left => 0
      | .centre => missing / 2
      | .right | .split => missing) ≤ missing := by
    intro missing
    cases s.alignment <;> simp only <;> omega
  have h := hbefore (s.width - text.length)
  simp only [pad, List.length_append, List.length_replicate]
  omega

end Format
end LoadReport
