import LoadReport.Log.PathValue.Scope
import LoadReport.Text.Split

/-!
# Paths of log files

The path of a log file is given as a template, whose only field is `time`,
the time at which the file is opened.

A file is known by its path without detours. Two templates name the same file
if their paths agree then.
-/

namespace LoadReport
namespace FilePath

/-! ## Detours -/

/-- Adds a part to a path, given from its end. Empty parts and single points
are dropped; two points take back the part before. -/
def addPart (parts : List String) (part : String) : List String :=
  if part = "" ∨ part = "." then parts
  else if part = ".." then
    match parts with
    | [] => [".."]
    | ".." :: _ => ".." :: parts
    | _ :: rest => rest
  else part :: parts

/-- The path under which a file is known, however it was written. -/
def canonical (path : String) : String :=
  let parts := ((Text.split '/' path.toList).map String.ofList).foldl addPart []
  (if path.startsWith "/" then "/" else "") ++ String.intercalate "/" parts.reverse

/-- Whether a path without detours stays in the working directory. -/
def isLocal (path : String) : Bool :=
  match Text.split '/' path.toList with
  | [] :: _ => false
  | ['.', '.'] :: _ => false
  | _ => true

/-! ## From template to path -/

inductive Error
  | template (fault : Template.Fault)
  | embeddedNull
deriving DecidableEq, Repr

def Error.message : Error → String
  | template fault => fault.message
  | embeddedNull => "embedded null byte"

/-- The path that a template gives to a file that is opened at a time. -/
def ofTemplate (clock : Calendar.Moment) (template : String) : Except Error String :=
  match (PathValue.scope clock).expand template.toList with
  | .error fault => .error (.template fault)
  | .ok filled =>
      let path := canonical (String.ofList filled)
      if path.toList.contains '\x00' then .error .embeddedNull else .ok path

/-- A template without braces is the path itself. -/
theorem ofTemplate_of_no_brace (clock : Calendar.Moment) {template : String}
    (hopen : '\x7b' ∉ template.toList) (hclose : '\x7d' ∉ template.toList)
    (hnull : '\x00' ∉ (canonical template).toList) :
    ofTemplate clock template = .ok (canonical template) := by
  have hfilled := Template.expand_of_no_brace (PathValue.scope clock) hopen hclose
  simp [ofTemplate, hfilled, hnull]

end FilePath
end LoadReport
