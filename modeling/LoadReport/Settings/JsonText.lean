import LoadReport.Datum

/-!
# Settings in JSON

Structured settings are written in JSON, with three words more: NaN,
Infinity and -Infinity are numbers. A number without a fraction and without
an exponent is a whole number of any size; all others are read into
binary64. Of fields with one name the last one counts. A string may name half
of a pair of UTF-16 units; it is read, but it is no text, and no field has
such a name.

Each part of the reader takes the text from where it stands and returns what
it read together with the rest. The parts that nest are given a number of
steps that no text of that length can use up, and the number of levels that
they may still go down.
-/

namespace LoadReport
namespace JsonText

/-- What nests. -/
inductive Shape
  | list | object
deriving DecidableEq, Repr

inductive Fault
  | malformed
  | tooDeep (shape : Shape)
deriving DecidableEq, Repr

/-- What was read, or else the fault that there was nothing to read. -/
def orMalformed {α : Type} : Option α → Except Fault α
  | some a => .ok a
  | none => .error .malformed

/-! ## Words and numbers -/

def isBlank (c : Char) : Bool := c == ' ' || c == '\t' || c == '\n' || c == '\r'

def skipBlanks (text : List Char) : List Char := text.dropWhile isBlank

/-- What follows a word, if the text starts with it. -/
def afterWord? (word : String) (text : List Char) : Option (List Char) :=
  if word.toList.isPrefixOf text then some (text.drop word.length) else none

def words : List (String × Datum) :=
  [("null", .null), ("true", .flag true), ("false", .flag false),
   ("NaN", .number (.float .nan)),
   ("Infinity", .number (.float (.infinite false))),
   ("-Infinity", .number (.float (.infinite true)))]

def readWord? (text : List Char) : Option (Datum × List Char) :=
  words.findSome? fun (word, value) => (afterWord? word text).map fun rest => (value, rest)

/-- The whole part of a number: a zero, or digits that do not start with
one. -/
def splitWhole : List Char → List Char × List Char
  | '0' :: rest => (['0'], rest)
  | text => (text.takeWhile Char.isDigit, text.dropWhile Char.isDigit)

/-- The fraction of a number, with its point. A point without digits after
it is not part of the number. -/
def splitPoint : List Char → List Char × List Char
  | '.' :: rest =>
      let digits := rest.takeWhile Char.isDigit
      if digits.isEmpty then ([], '.' :: rest) else ('.' :: digits, rest.dropWhile Char.isDigit)
  | text => ([], text)

/-- The exponent of a number, with its letter, if there are digits in it. -/
def splitPower (text : List Char) : List Char × List Char :=
  match text with
  | c :: rest =>
      let (sign, body) := match rest with
        | '-' :: r => (['-'], r)
        | '+' :: r => (['+'], r)
        | r => ([], r)
      let digits := body.takeWhile Char.isDigit
      if (c = 'e' ∨ c = 'E') ∧ ¬ digits.isEmpty then
        (c :: (sign ++ digits), body.dropWhile Char.isDigit)
      else
        ([], text)
  | [] => ([], [])

/-- The most digits that a whole number may have. -/
def maxDigits : Nat := 4300

def readNumber? (text : List Char) : Option (Datum × List Char) :=
  let (sign, rest) := match text with
    | '-' :: r => (['-'], r)
    | r => ([], r)
  let (whole, rest) := splitWhole rest
  let (fraction, rest) := splitPoint rest
  let (power, rest) := splitPower rest
  if whole.isEmpty then none
  else if fraction.isEmpty && power.isEmpty then
    if maxDigits < whole.length then none
    else (Number.readInt? (sign ++ whole)).map fun n => (.number (.int n), rest)
  else
    (Decimal.read? (sign ++ whole ++ fraction ++ power)).map fun d =>
      (.number (.float d.toBinary64), rest)

/-! ## Strings -/

def hexValue? (c : Char) : Option Nat :=
  if c.isDigit then some (c.toNat - '0'.toNat)
  else if 'a' ≤ c ∧ c ≤ 'f' then some (c.toNat - 'a'.toNat + 10)
  else if 'A' ≤ c ∧ c ≤ 'F' then some (c.toNat - 'A'.toNat + 10)
  else none

def hexUnit? (a b c d : Char) : Option Nat := do
  return (((← hexValue? a) * 16 + (← hexValue? b)) * 16 + (← hexValue? c)) * 16 + (← hexValue? d)

/-- The character with a code point, if it is one: half a pair of units stands
for none. -/
def charOf? (unit : Nat) : Option Char :=
  if 0xd800 ≤ unit ∧ unit < 0xe000 then none else some (Char.ofNat unit)

/-- The character that a pair of units stands for. -/
def pairChar? (high low : Nat) : Option Char :=
  if 0xd800 ≤ high ∧ high < 0xdc00 ∧ 0xdc00 ≤ low ∧ low < 0xe000 then
    some (Char.ofNat (0x10000 + (high - 0xd800) * 0x400 + (low - 0xdc00)))
  else
    none

/-- The character that a letter stands for after a backslash. -/
def escaped? : Char → Option Char
  | '"' => some '"'
  | '\\' => some '\\'
  | '/' => some '/'
  | 'b' => some '\x08'
  | 'f' => some '\x0c'
  | 'n' => some '\n'
  | 'r' => some '\r'
  | 't' => some '\t'
  | _ => none

def readUnit? : List Char → Option (Nat × List Char)
  | a :: b :: c :: d :: rest => (hexUnit? a b c d).map fun unit => (unit, rest)
  | _ => none

/-- Reads what stands behind the backslash of an escaped character. A unit
that is the first half of a pair takes the second half with it, if that
follows; a half that stands alone is no character. -/
def readEscape? : List Char → Option (Option Char × List Char)
  | [] => none
  | 'u' :: rest =>
      match readUnit? rest with
      | none => none
      | some (high, rest) =>
          match rest with
          | '\\' :: 'u' :: tail =>
              match readUnit? tail with
              | none => some (charOf? high, rest)
              | some (low, tail) =>
                  match pairChar? high low with
                  | none => some (charOf? high, rest)
                  | some c => some (some c, tail)
          | _ => some (charOf? high, rest)
  | c :: rest => (escaped? c).map fun e => (some e, rest)

/-- Reads a string behind its opening quote in a number of steps; `seen` are
the characters read before, last first. Control characters have to be
escaped. -/
def readChars? (fuel : Nat) (seen : List (Option Char)) (text : List Char) :
    Option (List (Option Char) × List Char) :=
  match fuel, text with
  | 0, _ => none
  | _, [] => none
  | _ + 1, '"' :: rest => some (seen.reverse, rest)
  | fuel + 1, '\\' :: rest =>
      match readEscape? rest with
      | none => none
      | some (c, rest) => readChars? fuel (c :: seen) rest
  | fuel + 1, c :: rest =>
      if c.toNat < 0x20 then none else readChars? fuel (some c :: seen) rest

/-- The text that characters make up, if all of them are characters. -/
def textOf? (chars : List (Option Char)) : Option String :=
  (chars.mapM id).map String.ofList

/-- Reads a string behind its opening quote; the text is missing if the
string is none. -/
def readString? (text : List Char) : Option (Option String × List Char) :=
  (readChars? text.length [] text).map fun (chars, rest) => (textOf? chars, rest)

def stringValue : Option String → Datum
  | some s => .text s
  | none => .brokenText

/-- Sets the field of a name, if that is one. -/
def setNamed (name : Option String) (value : Datum) (fields : Table String Datum) :
    Table String Datum :=
  match name with
  | some n => Table.put (· == ·) n value fields
  | none => fields

/-! ## Lists and objects -/

mutual

def readValue (fuel depth : Nat) (text : List Char) : Except Fault (Datum × List Char) :=
  match fuel with
  | 0 => .error .malformed
  | fuel + 1 =>
      match text with
      | '"' :: rest =>
          (orMalformed (readString? rest)).map fun (s, rest) => (stringValue s, rest)
      | '[' :: rest =>
          match depth with
          | 0 => .error (.tooDeep .list)
          | depth + 1 =>
              match skipBlanks rest with
              | ']' :: rest => .ok (.list [], rest)
              | rest => (readItems fuel depth rest).map fun (items, rest) => (.list items, rest)
      | '\x7b' :: rest =>
          match depth with
          | 0 => .error (.tooDeep .object)
          | depth + 1 =>
              match skipBlanks rest with
              | '\x7d' :: rest => .ok (.object [], rest)
              | rest =>
                  (readFields fuel depth [] rest).map fun (fields, rest) => (.object fields, rest)
      | _ => orMalformed ((readWord? text).or (readNumber? text))

/-- Reads the items of a list up to its closing bracket. -/
def readItems (fuel depth : Nat) (text : List Char) : Except Fault (List Datum × List Char) :=
  match fuel with
  | 0 => .error .malformed
  | fuel + 1 =>
      match readValue fuel depth text with
      | .error fault => .error fault
      | .ok (item, rest) =>
          match skipBlanks rest with
          | ']' :: rest => .ok ([item], rest)
          | ',' :: rest =>
              (readItems fuel depth (skipBlanks rest)).map fun (items, rest) =>
                (item :: items, rest)
          | _ => .error .malformed

/-- Reads the fields of an object up to its closing brace; `seen` are the
fields read before. -/
def readFields (fuel depth : Nat) (seen : Table String Datum) (text : List Char) :
    Except Fault (Table String Datum × List Char) :=
  match fuel, text with
  | fuel + 1, '"' :: rest =>
      match readString? rest with
      | none => .error .malformed
      | some (name, rest) =>
          match skipBlanks rest with
          | ':' :: rest =>
              match readValue fuel depth (skipBlanks rest) with
              | .error fault => .error fault
              | .ok (value, rest) =>
                  let fields := setNamed name value seen
                  match skipBlanks rest with
                  | '\x7d' :: rest => .ok (fields, rest)
                  | ',' :: rest => readFields fuel depth fields (skipBlanks rest)
                  | _ => .error .malformed
          | _ => .error .malformed
  | _, _ => .error .malformed

end

/-- Reads a JSON text; at most `depth` lists and objects may stand inside one
another. -/
def read (depth : Nat) (text : String) : Except Fault Datum :=
  let chars := text.toList
  match readValue (2 * chars.length + 2) depth (skipBlanks chars) with
  | .error fault => .error fault
  | .ok (value, rest) =>
      if (skipBlanks rest).isEmpty then .ok value else .error .malformed

end JsonText
end LoadReport
