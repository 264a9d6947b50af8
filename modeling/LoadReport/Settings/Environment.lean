import LoadReport.Settings.JsonText
import LoadReport.Settings.Validation
import LoadReport.Settings.VariableFile

/-!
# Settings from variables

Settings are taken from the variables of the environment and of a file. The
variable of a section holds a JSON object with its fields; the variable of a
field holds the field alone and wins over the object. Capitals do not matter
in names.

The two sources are read one after the other, the environment first, and are
put together field by field, where the environment wins. Only then are the
values checked. A source fails as a whole if a text that has to be JSON is
none, or nests too deep.
-/

namespace LoadReport

/-- Where variables are kept. -/
inductive Source
  | environment
  | file
deriving DecidableEq, Repr

def Source.label : Source → String
  | environment => "EnvSettingsSource"
  | file => "DotEnvSettingsSource"

/-- How many lists and objects may stand inside one another in the variable
of a section. The variable of a field is read one level further down, and so
is everything in a file. -/
def Source.depth : Source → Nat
  | environment => 981
  | file => 980

inductive Section
  | logging
  | statistics
deriving DecidableEq, Repr

def Section.name : Section → String
  | logging => "logging"
  | statistics => "statistics"

inductive SettingsError
  | unreadable (part : Section) (source : Source)
  | tooDeep (shape : JsonText.Shape)
  | refused (objections : List Objection)
deriving DecidableEq

/-- What a text nested too deep, as messages name it. -/
def JsonText.Shape.label : JsonText.Shape → String
  | list => "JSON array"
  | object => "JSON object"

def SettingsError.message : SettingsError → String
  | unreadable part source =>
      "error parsing value for field \"" ++ part.name ++ "\" from source \"" ++ source.label ++ "\""
  | tooDeep shape =>
      "maximum recursion depth exceeded while decoding a " ++ shape.label
        ++ " from a unicode string"
  | refused objections => String.intercalate "; " (objections.map Objection.message)

namespace Environment

/-! ## Names -/

/-- What separates the parts of a name. -/
def delimiter : String := "__"

/-- The start of the names of all variables that hold settings. -/
def root : String := "salvo"

/-- Names in small letters. Of names that differ in capitals only, the last
one counts. -/
def lowerNames (vars : Variables) : Variables :=
  Table.ofPairs (· == ·) (vars.map fun (name, value) => (name.toLower, value))

def sectionName (part : Section) : String := root ++ delimiter ++ part.name

/-- Splits off what stands before the first delimiter, if there is one. -/
def splitDelimiter : List Char → List Char × Option (List Char)
  | '_' :: '_' :: rest => ([], some rest)
  | c :: rest =>
      let (start, tail) := splitDelimiter rest
      (c :: start, tail)
  | [] => ([], none)

/-- The way from a section to what a variable holds: a field, and whether the
name goes on after it. -/
def fieldOf? (part : Section) (name : String) : Option (String × Bool) :=
  let start := (sectionName part ++ delimiter).toList
  if start.isPrefixOf name.toList then
    let (field, tail) := splitDelimiter (name.toList.drop start.length)
    some (String.ofList field, tail.isSome)
  else
    none

/-! ## Sections -/

/-- Whether the text of a field has to be JSON. -/
def isStructured (part : Section) (field : String) : Bool :=
  decide (part = .statistics) && field == "percentiles"

/-- The value of the variable of a field. The empty text is never read as
JSON. -/
def fieldValue (source : Source) (part : Section) (field : String) :
    Option String → Except JsonText.Fault Datum
  | none => .ok .null
  | some text =>
      if isStructured part field && !text.isEmpty then JsonText.read (source.depth - 1) text
      else .ok (.text text)

/-- Sets the field that a variable is for. A variable whose name goes on
after the field turns the field into an object, unless it is set already. -/
def setField (source : Source) (part : Section) (fields : Table String Datum)
    (entry : String × Option String) : Except JsonText.Fault (Table String Datum) :=
  match fieldOf? part entry.1 with
  | none => .ok fields
  | some (field, true) =>
      .ok (Table.update (· == ·) field (fun old => old.getD (.object [])) fields)
  | some (field, false) =>
      (fieldValue source part field entry.2).map fun value =>
        Table.put (· == ·) field value fields

/-- The fields of a section that have variables of their own. -/
def ownFields (source : Source) (part : Section) (vars : Variables) :
    Except JsonText.Fault (Table String Datum) :=
  vars.foldlM (setField source part) []

/-- Field names in small letters. Of names that differ in capitals only, the
last one counts. -/
def lowerFields (fields : Table String Datum) : Datum :=
  .object (Table.ofPairs (· == ·) (fields.map fun (name, value) => (name.toLower, value)))

/-- What the variables hold for a section, if anything. The fields with
variables of their own are looked at only if the section has no variable, or
one that holds an object. -/
def found (source : Source) (part : Section) (vars : Variables) :
    Except JsonText.Fault (Option Datum) :=
  match (Table.get? (· == ·) (sectionName part) vars).join with
  | none =>
      (ownFields source part vars).map fun fields =>
        if fields.isEmpty then none else some (lowerFields fields)
  | some text =>
      match JsonText.read source.depth text with
      | .error fault => .error fault
      | .ok .null => .ok none
      | .ok (.object fields) =>
          (ownFields source part vars).map fun own => some (lowerFields (Datum.setAll fields own))
      | .ok other => .ok (some other)

def readSection (source : Source) (vars : Variables) (part : Section) :
    Except SettingsError (Option Datum) :=
  match found source part vars with
  | .ok found => .ok found
  | .error .malformed => .error (.unreadable part source)
  | .error (.tooDeep shape) => .error (.tooDeep shape)

def readSource (source : Source) (vars : Variables) :
    Except SettingsError (Option Datum × Option Datum) := do
  let vars := lowerNames vars
  let logging ← readSection source vars .logging
  let statistics ← readSection source vars .statistics
  return (logging, statistics)

/-! ## Both sources -/

/-- What one source holds, laid over what another one holds. -/
def layOver : Option Datum → Option Datum → Option Datum
  | some upper, some lower => some (upper.covering lower)
  | some upper, none => some upper
  | none, lower => lower

end Environment

/-- The settings from an environment and the text of a file of variables. -/
def Settings.load (environment : List (String × String)) (file : String) :
    Except SettingsError Settings := do
  let (logging, statistics) ←
    Environment.readSource .environment (environment.map fun (name, value) => (name, some value))
  let (logging', statistics') ←
    Environment.readSource .file (VariableFile.read environment file)
  (Settings.ofSections (Environment.layOver logging logging')
    (Environment.layOver statistics statistics')).mapError .refused

end LoadReport
