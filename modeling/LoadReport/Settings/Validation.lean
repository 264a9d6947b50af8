import LoadReport.Datum
import LoadReport.Settings.Basic
import LoadReport.Summary.Percentile
import LoadReport.Text.Blank

/-!
# Checking settings

A value becomes a setting only if it fits the field it is meant for. Text is
read where a flag or a number is wanted, and whole numbers are taken for
binary64 numbers and, if they are 0 or 1, for flags; nothing is taken for
text but text. Broken text is a misfit of its own wherever text is looked at.

All fields are checked, and the objections to them are reported together in
the order of the fields. Percentiles are looked at twice: only a list of
numbers is checked for numbers outside of the range, and then only the first
of these is reported.
-/

namespace LoadReport

/-- How a value does not fit. -/
inductive Misfit
  | notObject
  | notFlag
  | unreadableFlag
  | notText
  | brokenText
  | notList
  | notNumber
  | unreadableNumber
  | outOfRange (found : Binary64)
deriving DecidableEq

def Misfit.message : Misfit → String
  | notObject => "model_type"
  | notFlag => "bool_type"
  | unreadableFlag => "bool_parsing"
  | notText => "string_type"
  | brokenText => "string_unicode"
  | notList => "list_type"
  | notNumber => "float_type"
  | unreadableNumber => "float_parsing"
  | outOfRange x => "Value error, Percentiles must be within [0, 1], got " ++ x.text

/-- A misfit with the way to the value: names of fields and positions in
lists. -/
structure Objection where
  path : List String
  misfit : Misfit
deriving DecidableEq

def Objection.message (o : Objection) : String :=
  String.intercalate "." o.path ++ ": " ++ o.misfit.message

/-- A value, or all objections to it. -/
abbrev Checked (α : Type) := Except (List Objection) α

namespace Checked

variable {α β : Type}

/-- The check of a single value. -/
def ofMisfit : Except Misfit α → Checked α
  | .ok a => .ok a
  | .error misfit => .error [⟨[], misfit⟩]

/-- The check of a value that stands in a field or at a position. -/
def within (name : String) : Checked α → Checked α
  | .ok a => .ok a
  | .error os => .error (os.map fun o => { o with path := name :: o.path })

/-- Two checks together, with the objections of both. -/
def both : Checked α → Checked β → Checked (α × β)
  | .ok a, .ok b => .ok (a, b)
  | .ok _, .error os => .error os
  | .error os, .ok _ => .error os
  | .error os, .error os' => .error (os ++ os')

/-- The checks of a list of values, the first of which is at a position. -/
def all (position : Nat) (check : α → Checked β) : List α → Checked (List β)
  | [] => .ok []
  | a :: rest =>
      (both ((check a).within (toString position)) (all (position + 1) check rest)).map
        fun (b, bs) => b :: bs

/-- The check of a field, which may be absent. -/
def field (name : String) (check : Datum → Checked α) (default : α)
    (fields : Table String Datum) : Checked α :=
  match Table.get? (· == ·) name fields with
  | none => .ok default
  | some d => (check d).within name

theorem both_eq_ok_iff {x : Checked α} {y : Checked β} {a : α} {b : β} :
    both x y = .ok (a, b) ↔ x = .ok a ∧ y = .ok b := by
  cases x <;> cases y <;> simp [both]

end Checked

namespace Datum

/-! ## Flags and texts -/

/-- The texts that mean no. -/
def noWords : List String := ["0", "f", "n", "no", "off", "false"]

/-- The texts that mean yes. -/
def yesWords : List String := ["1", "t", "y", "on", "yes", "true"]

/-- The first whole number that is too large to be looked at as a flag. -/
def flagLimit : Int := 2 ^ 63

def flagOfInt (n : Int) : Except Misfit Bool :=
  if n = 0 then .ok false
  else if n = 1 then .ok true
  else if -flagLimit ≤ n ∧ n < flagLimit then .error .unreadableFlag
  else .error .notFlag

def flagOfBinary64 (x : Binary64) : Except Misfit Bool :=
  match x.units? with
  | none => .error .notFlag
  | some n =>
      if n % unitsPerOne = 0 ∧ (n / unitsPerOne).natAbs < flagLimit then
        flagOfInt (n / unitsPerOne)
      else
        .error .notFlag

def toFlag : Datum → Except Misfit Bool
  | flag b => .ok b
  | text s =>
      if noWords.contains s.toLower then .ok false
      else if yesWords.contains s.toLower then .ok true
      else .error .unreadableFlag
  | number (.int n) => flagOfInt n
  | number (.float x) => flagOfBinary64 x
  | brokenText => .error .brokenText
  | _ => .error .notFlag

def toText : Datum → Except Misfit String
  | text s => .ok s
  | brokenText => .error .brokenText
  | _ => .error .notText

/-- A value as text that may be missing. -/
def toOptionalText : Datum → Except Misfit (Option String)
  | null => .ok none
  | d => d.toText.map some

/-! ## Numbers -/

/-- Reads a number, or a word for one that has no numeral. -/
def readNumeral? (numeral : List Char) : Option Binary64 :=
  let (negative, rest) := Decimal.splitSign numeral
  let word := String.ofList (rest.map Char.toLower)
  if word = "nan" then some .nan
  else if word = "inf" ∨ word = "infinity" then some (.infinite negative)
  else (Decimal.read? numeral).map Decimal.toBinary64

/-- Drops underscores, each of which has to stand alone between other
characters. -/
def dropUnderscores? (numeral : List Char) : Option (List Char) :=
  let adjacent := (numeral.zip (numeral.drop 1)).any fun (a, b) => a == '_' && b == '_'
  if adjacent || numeral.head? == some '_' || numeral.getLast? == some '_' then none
  else some (numeral.filter (· != '_'))

/-- Text as a number: between blanks, or without blanks and with underscores
in it. -/
def readFloat? (text : String) : Option Binary64 :=
  (readNumeral? (Text.trim Text.isBlank text.toList)).or
    ((dropUnderscores? text.toList).bind readNumeral?)

def toBinary64 : Datum → Except Misfit Binary64
  | number (.float x) => .ok x
  | number (.int n) => (Binary64.fitInt n).mapError fun _ => .notNumber
  | flag b => .ok (Binary64.ofInt (if b then 1 else 0))
  | text s =>
      match readFloat? s with
      | some x => .ok x
      | none => .error .unreadableNumber
  | brokenText => .error .brokenText
  | _ => .error .notNumber

end Datum

/-! ## Sections -/

/-- The settings of the log from their fields. Other fields are ignored. -/
def LoggingSettings.ofFields (fields : Table String Datum) : Checked LoggingSettings :=
  let d : LoggingSettings := {}
  let disabled := Checked.field "disabled" (.ofMisfit ·.toFlag) d.disabled fields
  let clearLoggers := Checked.field "clear_loggers" (.ofMisfit ·.toFlag) d.clearLoggers fields
  let consoleLogLevel :=
    Checked.field "console_log_level" (.ofMisfit ·.toText) d.consoleLogLevel fields
  let logFile := Checked.field "log_file" (.ofMisfit ·.toOptionalText) d.logFile fields
  let logFileLevel :=
    Checked.field "log_file_level" (.ofMisfit ·.toOptionalText) d.logFileLevel fields
  (disabled.both (clearLoggers.both (consoleLogLevel.both (logFile.both logFileLevel)))).map
    fun (disabled, clearLoggers, consoleLogLevel, logFile, logFileLevel) =>
      { disabled, clearLoggers, consoleLogLevel, logFile, logFileLevel }

/-- Whether a binary64 number can be reported as a percentile. -/
def isFraction (x : Binary64) : Bool := Percentile.inRange (.float x)

def checkPercentiles : Datum → Checked (List Binary64)
  | .list items =>
      match Checked.all 0 (.ofMisfit ·.toBinary64) items with
      | .error os => .error os
      | .ok ps =>
          match ps.find? fun p => !isFraction p with
          | some p => .error [⟨[], .outOfRange p⟩]
          | none => .ok ps
  | _ => .error [⟨[], .notList⟩]

/-- The settings of statistics from their fields. Other fields are ignored. -/
def StatisticsSettings.ofFields (fields : Table String Datum) : Checked StatisticsSettings :=
  let d : StatisticsSettings := {}
  (Checked.field "percentiles" checkPercentiles d.percentiles fields).map
    fun percentiles => { percentiles }

/-- A section, which may be absent, from its fields. -/
def checkSection {α : Type} (ofFields : Table String Datum → Checked α) (default : α) :
    Option Datum → Checked α
  | none => .ok default
  | some (.object fields) => ofFields fields
  | some _ => .error [⟨[], .notObject⟩]

def Settings.ofSections (logging statistics : Option Datum) : Checked Settings :=
  (Checked.both
    ((checkSection LoggingSettings.ofFields {} logging).within "logging")
    ((checkSection StatisticsSettings.ofFields {} statistics).within "statistics")).map
      fun (logging, statistics) => { logging, statistics }

end LoadReport
