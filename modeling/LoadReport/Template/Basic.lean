import LoadReport.Format.Specification

/-!
# Templates

A template is text with fields between braces. A brace that is meant as text
is written twice. A field has a name, and behind it perhaps a conversion
after an exclamation mark and a specification after a colon:

    text {name!conversion:specification} text

* Brackets in a name shield what is between them.
* The specification ends at the brace that closes the field; braces inside of
  it come in pairs.

A template is read from the left, and a fault ends the reading. What stands
before the fault is kept, since whoever fills in a template within a
specification may find a fault there that comes first.
-/

namespace LoadReport
namespace Template

/-- What is asked for between brackets. -/
inductive Item
  | place (n : Nat)
  | key (name : String)
deriving DecidableEq, Repr

def Item.text : Item → String
  | place n => toString n
  | key name => Text.quoted name

inductive Fault
  /-- A brace that closes nothing. -/
  | loneClosing
  /-- A brace at the end of the text. -/
  | loneOpening
  | braceInName
  | unclosedField
  | missingConversion
  /-- A conversion is followed by something else than a specification. -/
  | misplacedConversion
  | unclosedSpecification
  | unknownConversion (conversion : Char)
  /-- A field is named by its place. -/
  | positional
  | numberTooLarge
  | unknownField (name : String)
  | emptyAccess
  | unclosedItem
  /-- The name of a field goes on behind an item with something else than
  another access. -/
  | misplacedAccess
  /-- A value has no part of a name; `owner` says which value. -/
  | unknownPart (owner name : String)
  /-- A value may have a part of a name, but has none. -/
  | unsetPart (name : String)
  /-- A value has no items; `owner` says which value. -/
  | withoutItems (owner : String)
  /-- A character of a text is asked for by something else than its place. -/
  | unplacedCharacter
  /-- An item of a row is asked for by something else than its place. -/
  | unplacedItem
  /-- A text or a row is too short to have an item. -/
  | missingItem (sequence : String)
  /-- Nothing is kept under a key. -/
  | missingKey (key : Item)
  /-- A choice of what to hold is asked for where it has been made. -/
  | chosenAlready (selection : String)
  /-- A value of a kind is always written in the same way. -/
  | withoutLayouts (kind : String)
  /-- A specification is refused. -/
  | layout (fault : Format.Fault)
  /-- A specification asks for more digits of a second than there are. -/
  | tooPrecise
  /-- Fields stand in the specifications of fields in specifications. -/
  | tooDeep
deriving DecidableEq, Repr

def conversionText (conversion : Char) : String := Text.shownBelow 127 conversion

def Fault.message : Fault → String
  | loneClosing => "Single '\x7d' encountered in format string"
  | loneOpening => "Single '\x7b' encountered in format string"
  | braceInName => "unexpected '\x7b' in field name"
  | unclosedField => "expected '\x7d' before end of string"
  | missingConversion => "end of string while looking for conversion specifier"
  | misplacedConversion => "expected ':' after conversion specifier"
  | unclosedSpecification => "unmatched '\x7b' in format spec"
  | unknownConversion c => "Unknown conversion specifier " ++ conversionText c
  | positional => "Format string contains positional fields"
  | numberTooLarge => "Too many decimal digits in format string"
  | unknownField name => Text.quoted name
  | emptyAccess => "Empty attribute in format string"
  | unclosedItem => "Missing ']' in format string"
  | misplacedAccess => "Only '.' or '[' may follow ']' in format field specifier"
  | unknownPart owner name => owner ++ " has no attribute '" ++ name ++ "'"
  | unsetPart name => name
  | withoutItems owner => owner ++ " is not subscriptable"
  | unplacedCharacter => "string indices must be integers, not 'str'"
  | unplacedItem => "tuple indices must be integers or slices, not str"
  | missingItem sequence => sequence ++ " index out of range"
  | missingKey key => key.text
  | chosenAlready selection => selection ++ " is not a generic class"
  | withoutLayouts kind => "unsupported format string passed to " ++ kind ++ ".__format__"
  | layout fault => fault.message
  | tooPrecise =>
      "Invalid time format: the provided format string contains more than six successive 'S' " ++
        "characters. This may be due to an attempt to use nanosecond precision, which is not " ++
        "supported."
  | tooDeep => "Max string recursion exceeded"

structure Field where
  name : List Char
  conversion : Option Char := none
  specification : List Char := []
deriving DecidableEq, Repr

inductive Piece
  | text (c : Char)
  | field (f : Field)
deriving DecidableEq, Repr

/-! ## Reading -/

/-- The name of a field, and what follows it. -/
def splitName (inBrackets : Bool) : List Char → List Char × List Char
  | [] => ([], [])
  | c :: rest =>
      if !inBrackets && (c == '\x7b' || c == '\x7d' || c == ':' || c == '!') then ([], c :: rest)
      else
        let (name, tail) := splitName (if inBrackets then c != ']' else c == '[') rest
        (c :: name, tail)

/-- The specification of a field, and what follows the field; `depth` braces
are open in it. -/
def splitSpecification? (depth : Nat) : List Char → Option (List Char × List Char)
  | [] => none
  | c :: rest =>
      if c = '\x7d' then
        match depth with
        | 0 => some ([], rest)
        | depth + 1 =>
            (splitSpecification? depth rest).map fun (inside, tail) => (c :: inside, tail)
      else
        (splitSpecification? (if c = '\x7b' then depth + 1 else depth) rest).map
          fun (inside, tail) => (c :: inside, tail)

def readSpecification (name : List Char) (conversion : Option Char) (text : List Char) :
    Except Fault (Field × List Char) :=
  match splitSpecification? 0 text with
  | none => .error .unclosedSpecification
  | some (specification, tail) => .ok ({ name, conversion, specification }, tail)

/-- Reads a field behind its opening brace. -/
def readField (text : List Char) : Except Fault (Field × List Char) :=
  let (name, after) := splitName false text
  match after with
  | '\x7d' :: tail => .ok ({ name }, tail)
  | ':' :: rest => readSpecification name none rest
  | ['!'] => .error .missingConversion
  | ['!', _] => .error .unclosedSpecification
  | '!' :: c :: '\x7d' :: tail => .ok ({ name, conversion := some c }, tail)
  | '!' :: c :: ':' :: rest => readSpecification name (some c) rest
  | '!' :: _ => .error .misplacedConversion
  | '\x7b' :: _ => .error .braceInName
  | _ => .error .unclosedField

/-- What was read of a template, and the fault that ended the reading. -/
structure Reading where
  pieces : List Piece
  fault : Option Fault
deriving DecidableEq, Repr

/-- A reading with one piece more in front. -/
def Reading.push (piece : Piece) (r : Reading) : Reading := { r with pieces := piece :: r.pieces }

/-- Reads a template in at most as many steps as it has characters. -/
def readWithin : Nat → List Char → Reading
  | 0, _ => ⟨[], none⟩
  | fuel + 1, text =>
      match text with
      | [] => ⟨[], none⟩
      | '\x7b' :: '\x7b' :: rest => (readWithin fuel rest).push (.text '\x7b')
      | '\x7d' :: '\x7d' :: rest => (readWithin fuel rest).push (.text '\x7d')
      | '\x7d' :: _ => ⟨[], some .loneClosing⟩
      | ['\x7b'] => ⟨[], some .loneOpening⟩
      | '\x7b' :: rest =>
          match readField rest with
          | .error fault => ⟨[], some fault⟩
          | .ok (field, tail) => (readWithin fuel tail).push (.field field)
      | c :: rest => (readWithin fuel rest).push (.text c)

def read (text : List Char) : Reading := readWithin text.length text

end Template
end LoadReport
