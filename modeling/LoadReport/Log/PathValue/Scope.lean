import LoadReport.Format.Text
import LoadReport.Format.Whole
import LoadReport.Log.PathValue.Part

/-!
# Fields in the paths of log files

The only name in a path is `time`, the time at which the file is opened. Its
parts are followed as they are named, and its items as they are asked for:
texts and rows have items by place, records and views by key, and some kinds
may be asked for with a choice of what they are to hold.

How a value is written under a specification depends on its kind:

* the time of opening and the date with a zone take patterns of moments;
* the limits of the calendar take layouts of percent directives;
* numbers and texts take specifications of layout;
* all others are written in one way only.
-/

namespace LoadReport
open Calendar

namespace PathValue

/-! ## Items -/

/-- What is asked for between brackets, as a value. -/
def ofItem : Template.Item → PathValue
  | .place n => whole n
  | .key name => text name

/-- Whether a kind may be asked for with a choice of what it is to hold. -/
def admitsChoice (k : PathKind) : Bool :=
  k == .kind || (k.member? "__class_getitem__").isSome

/-- An item by its place. -/
def placed (sequence : String) (items : List PathValue) (n : Nat) :
    Except Template.Fault PathValue :=
  match items[n]? with
  | some v => .ok v
  | none => .error (.missingItem sequence)

/-- An item by its key. -/
def keyed (fields : List (String × PathValue)) (i : Template.Item) :
    Except Template.Fault PathValue :=
  match i with
  | .place _ => .error (.missingKey i)
  | .key name =>
      match fields.lookup name with
      | some v => .ok v
      | none => .error (.missingKey i)

def item (clock : Moment) (v : PathValue) (i : Template.Item) :
    Except Template.Fault PathValue :=
  match v, i with
  | text t, .place n => placed "string" (t.toList.map fun c => text c.toString) n
  | text _, .key _ => .error .unplacedCharacter
  | row items, .place n => placed "tuple" items n
  | row _, .key _ => .error .unplacedItem
  | record fields, _ => keyed fields i
  | view fields, _ => keyed fields i
  | kind k, _ =>
      if admitsChoice k then .ok (selection k [ofItem i])
      else .error (.withoutItems ("type '" ++ k.name ++ "'"))
  | selection _ _, _ => .error (.chosenAlready (v.literal clock))
  | _, _ => .error (.withoutItems v.owner)

/-! ## Specifications -/

/-- The pattern of the time of opening that is used instead of an empty
one. -/
def openingPattern : List Char := "%Y-%m-%d_%H-%M-%S_%f".toList

/-- A moment in a pattern. -/
def inPattern (m : Moment) (pattern : List Char) : Except Template.Fault (List Char) :=
  match m.inPattern? pattern with
  | some written => .ok written
  | none => .error .tooPrecise

/-- A value under a specification. -/
def write (clock : Moment) (v : PathValue) (specification : List Char) :
    Except Template.Fault (List Char) :=
  match v with
  | opening => inPattern clock (if specification.isEmpty then openingPattern else specification)
  | instant => inPattern clock specification
  | whole n => (Format.writeWhole n specification).mapError .layout
  | flag b =>
      if specification.isEmpty then .ok (v.display clock).toList
      else (Format.writeWhole (if b then 1 else 0) specification).mapError .layout
  | text t => (Format.writeText t.toList specification).mapError .layout
  | date m | day m =>
      .ok (if specification.isEmpty then (v.display clock).toList
        else m.inLayout none specification)
  | _ =>
      if specification.isEmpty then .ok (v.display clock).toList
      else .error (.withoutLayouts v.kindOf.name)

/-- What the fields of a path stand for, if `clock` is the time of opening:
`time` is the only name. -/
def scope (clock : Moment) : Template.Scope PathValue where
  named? name := if name = "time" then some .opening else none
  part := part clock
  item := item clock
  convert := convert clock
  write := write clock

end PathValue
end LoadReport
