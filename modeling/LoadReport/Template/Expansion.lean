import LoadReport.Template.Basic
import LoadReport.Text.DecimalDigit

/-!
# Filling in templates

What the fields of a template stand for is given by a **scope**: it names
values, and says which parts and items they have, how they are converted to
text and how they are written under a specification. No value of a scope is
named by its place.

A template that cannot be read to its end is not filled in at all. Otherwise
pieces are filled in from the left, and the first fault ends it. Of one field
the name is looked up first, then the accesses to parts and items are made
one after another, then the conversion is made, and then the specification is
filled in, which may be a template itself, one level deep. Such a template is
read only then, and its pieces are filled in up to where the reading ended.
-/

namespace LoadReport
namespace Template

inductive Conversion
  /-- As it is usually written. -/
  | display
  /-- With all its parts told apart. -/
  | literal
  /-- The same, in ASCII alone. -/
  | asciiLiteral
deriving DecidableEq, Repr

/-- What the fields of a template may stand for. -/
structure Scope (V : Type) where
  named? : String → Option V
  part : V → String → Except Fault V
  item : V → Item → Except Fault V
  convert : Conversion → V → V
  write : V → List Char → Except Fault (List Char)

/-! ## Names -/

/-- The number that a name is, if it is one. A name that starts with too
large a number is a fault, whatever follows. -/
def numberOf? (name : List Char) : Except Fault (Option Nat) :=
  if name.isEmpty then .ok none
  else
    match Text.readNumber? 0 name with
    | none => .error .numberTooLarge
    | some (number, []) => .ok (some number)
    | some _ => .ok none

/-- What is asked for between brackets. -/
def readItem (text : List Char) : Except Fault Item :=
  match numberOf? text with
  | .error fault => .error fault
  | .ok (some n) => .ok (.place n)
  | .ok none => if text.isEmpty then .error .emptyAccess else .ok (.key (String.ofList text))

def splitAccess (name : List Char) : List Char × List Char :=
  let plain (c : Char) : Bool := c != '.' && c != '['
  (name.takeWhile plain, name.dropWhile plain)

namespace Scope

variable {V : Type}

/-- The value that the first part of a name stands for. -/
def value (scope : Scope V) (name : List Char) : Except Fault V := do
  let number ← numberOf? name
  if name.isEmpty || number.isSome then .error .positional
  else
    match scope.named? (String.ofList name) with
    | some v => .ok v
    | none => .error (.unknownField (String.ofList name))

/-- Makes the accesses of a name one after another; each takes at least one
character. -/
def access (scope : Scope V) : Nat → V → List Char → Except Fault V
  | 0, v, _ => .ok v
  | fuel + 1, v, accesses =>
      match accesses with
      | [] => .ok v
      | '.' :: rest =>
          let (name, tail) := splitAccess rest
          if name.isEmpty then .error .emptyAccess
          else do
            let found ← scope.part v (String.ofList name)
            access scope fuel found tail
      | '[' :: rest =>
          let inside := rest.takeWhile (· != ']')
          if inside.length = rest.length then .error .unclosedItem
          else do
            let item ← readItem inside
            let found ← scope.item v item
            access scope fuel found (rest.drop (inside.length + 1))
      | _ => .error .misplacedAccess

def resolve (scope : Scope V) (name : List Char) : Except Fault V := do
  let (first, accesses) := splitAccess name
  let v ← scope.value first
  scope.access accesses.length v accesses

/-! ## Conversions -/

/-- Converts a value. The character zero asks for nothing. -/
def converted (scope : Scope V) (conversion : Option Char) (v : V) : Except Fault V :=
  match conversion with
  | none => .ok v
  | some c =>
      if c = '\x00' then .ok v
      else if c = 's' then .ok (scope.convert .display v)
      else if c = 'r' then .ok (scope.convert .literal v)
      else if c = 'a' then .ok (scope.convert .asciiLiteral v)
      else .error (.unknownConversion c)

/-! ## Filling in -/

/-- What is written for a piece, given how templates in specifications are
filled in. -/
def writePiece (scope : Scope V) (fillIn : List Char → Except Fault (List Char)) :
    Piece → Except Fault (List Char)
  | .text c => .ok [c]
  | .field f => do
      let v ← scope.resolve f.name
      let v ← scope.converted f.conversion v
      let specification ←
        if f.specification.contains '\x7b' then fillIn f.specification else .ok f.specification
      scope.write v specification

/-- Fills in a template whose specifications may nest to a depth. A fault
of its reading counts only once everything before it is filled in. -/
def expandWithin (scope : Scope V) : Nat → List Char → Except Fault (List Char)
  | 0, _ => .error .tooDeep
  | depth + 1, text => do
      let reading := read text
      let parts ← reading.pieces.mapM (scope.writePiece (expandWithin scope depth))
      match reading.fault with
      | some fault => .error fault
      | none => .ok parts.flatten

def expand (scope : Scope V) (template : List Char) : Except Fault (List Char) :=
  match (read template).fault with
  | some fault => .error fault
  | none => scope.expandWithin 2 template

/-- Whether a template can be read does not hang on what its fields stand
for. -/
theorem expand_of_fault (scope : Scope V) {template : List Char} {fault : Fault}
    (h : (read template).fault = some fault) : scope.expand template = .error fault := by
  simp [expand, h]

end Scope

/-! ## Text without braces -/

theorem readWithin_of_no_brace {fuel : Nat} {text : List Char} (hfuel : text.length ≤ fuel)
    (hopen : '\x7b' ∉ text) (hclose : '\x7d' ∉ text) :
    readWithin fuel text = ⟨text.map Piece.text, none⟩ := by
  induction fuel generalizing text with
  | zero =>
      obtain rfl := List.length_eq_zero_iff.1 (Nat.le_zero.1 hfuel)
      rfl
  | succ fuel ih =>
      cases text with
      | nil => rfl
      | cons c rest =>
          simp only [List.mem_cons, not_or] at hopen hclose
          have hrest := ih (Nat.le_of_succ_le_succ hfuel) hopen.2 hclose.2
          unfold readWithin
          split <;> simp_all [Reading.push]

theorem mapM_writePiece_text {V : Type} (scope : Scope V)
    (fillIn : List Char → Except Fault (List Char)) (text : List Char) :
    (text.map Piece.text).mapM (scope.writePiece fillIn) = .ok (text.map fun c => [c]) := by
  induction text with
  | nil => rfl
  | cons c rest ih =>
      rw [List.map_cons, List.mapM_cons, ih]
      rfl

/-- Text without braces stands for itself. -/
theorem expand_of_no_brace {V : Type} (scope : Scope V) {text : List Char}
    (hopen : '\x7b' ∉ text) (hclose : '\x7d' ∉ text) : scope.expand text = .ok text := by
  have hread : read text = ⟨text.map Piece.text, none⟩ :=
    readWithin_of_no_brace (Nat.le_refl _) hopen hclose
  have hflatten : (text.map fun c => [c]).flatten = text := by
    rw [← List.flatMap_def, List.flatMap_singleton']
  simp only [Scope.expand, hread]
  rw [Scope.expandWithin, hread, mapM_writePiece_text]
  exact congrArg Except.ok hflatten

end Template
end LoadReport
