/-!
# Kinds of values in paths

Whatever a field of a path may lead to belongs to a kind. Kinds have names by
which messages speak of them, and each of them descends from others: what the
values of an ancestor have, the values of a kind have as well. The ancestor of
all is `anything`.

Besides the values that one would expect behind a time (dates, spans, zones,
numbers, texts) there are those that show what other values are made of: kinds
themselves, what kinds let their values do, and collections of all these.
-/

namespace LoadReport

/-- What a value is. -/
inductive PathKind
  /-- The time of opening, as file names need it. -/
  | opening
  /-- A moment that knows patterns. -/
  | instant
  /-- A moment. -/
  | date
  /-- A day without a time. -/
  | day
  | span
  | zone
  /-- What time zones of every sort have in common. -/
  | anyZone
  | whole
  /-- Yes or no, as a number. -/
  | flag
  | text
  | nothing
  /-- Several values in a row. -/
  | row
  /-- Values by name. -/
  | record
  /-- Values by name that cannot be changed. -/
  | view
  | kind
  | anything
  /-- What a value can do by itself. -/
  | method
  /-- What a value can do by means of a routine. -/
  | boundRoutine
  | routine
  /-- The steps of a routine. -/
  | code
  /-- A method, before it is known which value it is for. -/
  | methodEntry
  /-- A method of a kind, before it is known which kind it is for. -/
  | makerEntry
  /-- An operator, before it is known which value it is for. -/
  | operatorEntry
  /-- The operator of a value. -/
  | operator
  /-- A part that is worked out, before it is known of which value. -/
  | readingEntry
  /-- A part that is kept, before it is known of which value. -/
  | fieldEntry
  /-- A kind together with a choice of what it is to hold. -/
  | selection
deriving DecidableEq, Repr

namespace PathKind

/-! ## Names -/

/-- The module that a kind belongs to; basic ones belong to none. -/
def home : PathKind → Option String
  | opening => some "loguru._file_sink"
  | instant => some "loguru._datetime"
  | date | day | span | zone | anyZone => some "datetime"
  | selection => some "types"
  | _ => none

/-- The name of a kind within its module. -/
def ownName : PathKind → String
  | opening => "FileDateFormatter"
  | instant | date => "datetime"
  | day => "date"
  | span => "timedelta"
  | zone => "timezone"
  | anyZone => "tzinfo"
  | whole => "int"
  | flag => "bool"
  | text => "str"
  | nothing => "NoneType"
  | row => "tuple"
  | record => "dict"
  | view => "mappingproxy"
  | kind => "type"
  | anything => "object"
  | method => "builtin_function_or_method"
  | boundRoutine => "method"
  | routine => "function"
  | code => "code"
  | methodEntry => "method_descriptor"
  | makerEntry => "classmethod_descriptor"
  | operatorEntry => "wrapper_descriptor"
  | operator => "method-wrapper"
  | readingEntry => "getset_descriptor"
  | fieldEntry => "member_descriptor"
  | selection => "GenericAlias"

def fullName (k : PathKind) : String :=
  match k.home with
  | some home => home ++ "." ++ k.ownName
  | none => k.ownName

/-- Whether a kind was built on top of the basic ones. -/
def isBuilt (k : PathKind) : Bool := k == opening || k == instant

/-- The name of a kind in messages. -/
def name (k : PathKind) : String := if k.isBuilt then k.ownName else k.fullName

/-! ## Descent -/

/-- A kind and those that it descends from, the nearest first. -/
def ancestry : PathKind → List PathKind
  | instant => [instant, date, day, anything]
  | date => [date, day, anything]
  | zone => [zone, anyZone, anything]
  | flag => [flag, whole, anything]
  | anything => [anything]
  | k => [k, anything]

def parent? (k : PathKind) : Option PathKind := k.ancestry.tail.head?

/-- Every kind descends from `anything`. -/
theorem anything_mem_ancestry (k : PathKind) : anything ∈ k.ancestry := by cases k <;> decide

/-! ## Layout in memory -/

/-- How the values of a kind lie in memory. -/
structure Figures where
  /-- The size of a value. -/
  size : Nat
  /-- By how much each item adds to the size. -/
  itemSize : Nat
  /-- Marks of what the kind is able to do, as bits of a number. -/
  marks : Nat
  /-- Where the fields of a value are found, if it may have any. -/
  fieldsAt : Int
  /-- Where the references to a value are found, if they are kept. -/
  referencesAt : Nat
deriving DecidableEq, Repr

def figures : PathKind → Figures
  | opening => ⟨24, 0, 546320, -48, 16⟩
  | instant => ⟨56, 0, 546320, -80, 48⟩
  | date => ⟨48, 0, 529664, 0, 0⟩
  | day => ⟨32, 0, 529664, 0, 0⟩
  | span => ⟨40, 0, 529664, 0, 0⟩
  | zone => ⟨32, 0, 528640, 0, 0⟩
  | anyZone => ⟨16, 0, 529664, 0, 0⟩
  | whole => ⟨24, 4, 21501184, 0, 0⟩
  | flag => ⟨32, 4, 21500160, 0, 0⟩
  | text => ⟨80, 0, 273159424, 0, 0⟩
  | nothing => ⟨16, 0, 528640, 0, 0⟩
  | row => ⟨24, 8, 71849248, 0, 0⟩
  | record => ⟨48, 0, 541611328, 0, 0⟩
  | view => ⟨24, 0, 545088, 0, 0⟩
  | kind => ⟨904, 40, 2148031744, 264, 368⟩
  | anything => ⟨16, 0, 529664, 0, 0⟩
  | method => ⟨56, 0, 547200, 0, 40⟩
  | boundRoutine => ⟨48, 0, 547072, 0, 32⟩
  | routine => ⟨136, 0, 678144, 88, 96⟩
  | code => ⟨184, 2, 528640, 0, 144⟩
  | methodEntry => ⟨56, 0, 678272, 0, 0⟩
  | makerEntry => ⟨56, 0, 545152, 0, 0⟩
  | operatorEntry => ⟨56, 0, 676224, 0, 0⟩
  | operator => ⟨32, 0, 545152, 0, 0⟩
  | readingEntry => ⟨48, 0, 545152, 0, 0⟩
  | fieldEntry => ⟨48, 0, 545152, 0, 0⟩
  | selection => ⟨64, 0, 548096, 0, 40⟩

end PathKind
end LoadReport
