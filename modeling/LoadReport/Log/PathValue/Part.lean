import LoadReport.Log.PathValue.Basic
import LoadReport.Log.PathValue.Note

/-!
# Parts of values in paths

A part of a value is found by its name in three steps. If the kind of the
value has a member of that name which is a part, that part is taken. Otherwise
the value may have a field of its own. Otherwise a member is taken as it is
kept, tied to the value where that makes sense.

Two sorts of values look further. A kind is asked for the members of its own
ancestry before it is treated as one value among others, and a bound routine
passes on what it does not know to its routine. A selection knows very little
and passes on all else to the kind that it was made from.
-/

namespace LoadReport
open Calendar

namespace PathValue

/-! ## What kinds keep -/

def ofText? : Option String → PathValue
  | some t => text t
  | none => nothing

/-- The plain members of kinds: the first and the last value and the step
between values, the universal zone, homes and explanations. -/
def shared (owner : PathKind) (name : String) : PathValue :=
  match owner, name with
  | .date, "min" => date .first
  | .date, "max" => date .last
  | .date, "resolution" => span .shortest
  | .day, "min" => day Moment.first
  | .day, "max" => day Moment.last.startOfDay
  | .day, "resolution" => span .day
  | .span, "min" => span .lowest
  | .span, "max" => span .longest
  | .span, "resolution" => span .shortest
  | .zone, "min" => zone .rearmost
  | .zone, "max" => zone .foremost
  | .zone, "utc" => zone .universal
  | _, "__module__" => ofText? owner.home
  | _, "__doc__" => ofText? (owner.ownNote?.bind Note.text?)
  | _, _ => nothing

/-- A member as its kind keeps it. -/
def kept (owner : PathKind) (sort : MemberSort) (name : String) : PathValue :=
  match sort with
  | .plain => shared owner name
  | .maker | .helper => bound owner sort name (kind owner)
  | _ => entry owner sort name

def contents (k : PathKind) : List (String × PathValue) :=
  k.members.map fun (name, sort) => (name, kept k sort name)

def atKind (k owner : PathKind) (sort : MemberSort) (name : String) : PathValue :=
  if sort = .kindMethod then bound owner sort name (kind k) else kept owner sort name

def atValue (v : PathValue) (owner : PathKind) (sort : MemberSort) (name : String) : PathValue :=
  match sort with
  | .operator | .method | .routine => bound owner sort name v
  | _ => atKind v.kindOf owner sort name

/-! ## Parts of kinds -/

/-- The explanation that a kind gives of itself. What has none shows instead
how the values of the kind explain themselves, if they do. -/
def explanation (k : PathKind) : PathValue :=
  match k.ownNote?.bind Note.text? with
  | some t => text t
  | none =>
      match k.members.lookup "__doc__" with
      | some sort => kept k sort "__doc__"
      | none => nothing

def kindPart? (k : PathKind) (name : String) : Option PathValue :=
  match name with
  | "__name__" | "__qualname__" => some (text k.ownName)
  | "__module__" => some (text (k.home.getD "builtins"))
  | "__base__" => some (k.parent?.elim nothing kind)
  | "__bases__" => some (row (k.parent?.toList.map kind))
  | "__mro__" => some (row (k.ancestry.map kind))
  | "__dict__" => some (view (contents k))
  | "__doc__" => some (explanation k)
  | "__text_signature__" => some (ofText? (k.ownNote?.bind Note.signature))
  | "__annotations__" => if k.isBuilt then some (record []) else none
  | "__basicsize__" => some (whole k.figures.size)
  | "__itemsize__" => some (whole k.figures.itemSize)
  | "__flags__" => some (whole k.figures.marks)
  | "__dictoffset__" => some (whole k.figures.fieldsAt)
  | "__weakrefoffset__" => some (whole k.figures.referencesAt)
  | _ => none

/-! ## Parts of members -/

/-- The parts of a member that is not tied to a value. Members are taken to have
no notes. -/
def entryPart? (owner : PathKind) (member name : String) : Option PathValue :=
  match name with
  | "__name__" => some (text member)
  | "__qualname__" => some (text (qualified owner member))
  | "__objclass__" => some (kind owner)
  | "__doc__" | "__text_signature__" => some nothing
  | _ => none

/-- The kind that a method speaks of: a kind speaks for itself. -/
def speaker : PathValue → PathKind
  | kind k => k
  | v => v.kindOf

/-- The parts of a method that is tied to a value. -/
def methodPart? (sort : MemberSort) (member : String) (self : PathValue) (name : String) :
    Option PathValue :=
  match name with
  | "__name__" => some (text member)
  | "__qualname__" => some (text (qualified self.speaker member))
  | "__self__" => some (if sort = .helper then nothing else self)
  | "__module__" | "__doc__" | "__text_signature__" => some nothing
  | _ => none

/-! ## Parts of routines -/

/-- What a routine finds around it, as far as it is known. -/
def surroundings (owner : PathKind) : List (String × PathValue) :=
  [("__name__", ofText? owner.home), ("__doc__", nothing), ("__package__", text "loguru")] ++
    match owner with
    | .opening =>
        [("ST_DEV", whole 2), ("ST_INO", whole 1), (PathKind.opening.ownName, kind .opening)]
    | .instant =>
        [("datetime_", kind .date), ("timedelta", kind .span), ("timezone", kind .zone),
         (PathKind.instant.ownName, kind .instant)]
    | _ => []

/-- What a routine takes if it is not given anything: the time of opening is
made without a time. -/
def defaults (owner : PathKind) (member : String) : PathValue :=
  match owner, member with
  | .opening, "__init__" => row [nothing]
  | _, _ => nothing

def routinePart? (owner : PathKind) (member name : String) : Option PathValue :=
  match name with
  | "__name__" => some (text member)
  | "__qualname__" => some (text (qualified owner member))
  | "__module__" => some (ofText? owner.home)
  | "__doc__" | "__closure__" | "__kwdefaults__" => some nothing
  | "__defaults__" => some (defaults owner member)
  | "__globals__" => some (record (surroundings owner))
  | "__annotations__" | "__dict__" | "__builtins__" => some (record [])
  | "__code__" => some (code owner member)
  | _ => none

/-- The name of the second thing that a routine is given, the names that it
looks up, its constant values besides nothing, and how many values it holds
at once. -/
def steps (owner : PathKind) (member : String) :
    String × List String × List String × Nat :=
  match owner, member with
  | .opening, "__init__" => ("datetime", ["aware_now", "datetime"], [], 2)
  | .opening, _ => ("spec", ["datetime", "__format__"], ["%Y-%m-%d_%H-%M-%S_%f"], 3)
  | _, _ => ("fmt", ["_compile_format"], [], 3)

/-- The parts of the steps of a routine. All routines are given two things. -/
def codePart? (owner : PathKind) (member name : String) : Option PathValue :=
  let (given, names, constants, depth) := steps owner member
  match name with
  | "co_name" => some (text member)
  | "co_qualname" => some (text (qualified owner member))
  | "co_argcount" | "co_nlocals" => some (whole 2)
  | "co_posonlyargcount" | "co_kwonlyargcount" => some (whole 0)
  | "co_flags" => some (whole 3)
  | "co_stacksize" => some (whole depth)
  | "co_varnames" => some (row [text "self", text given])
  | "co_names" => some (row (names.map text))
  | "co_consts" => some (row (nothing :: constants.map text))
  | "co_cellvars" | "co_freevars" => some (row [])
  | _ => none

/-! ## Parts of other values -/

def datePart? (m : Moment) (zone : PathValue) (name : String) : Option PathValue :=
  match name with
  | "year" => some (whole m.year)
  | "month" => some (whole m.month)
  | "day" => some (whole m.day)
  | "hour" => some (whole m.hour)
  | "minute" => some (whole m.minute)
  | "second" => some (whole m.second)
  | "microsecond" => some (whole m.microsecond)
  | "fold" => some (whole 0)
  | "tzinfo" => some zone
  | _ => none

def wholePart? (n : Int) (name : String) : Option PathValue :=
  match name with
  | "real" | "numerator" => some (whole n)
  | "imag" => some (whole 0)
  | "denominator" => some (whole 1)
  | _ => none

/-- The fields that a value has of its own, if it may have any. -/
def fields? : PathValue → Option (List (String × PathValue))
  | opening => some [("datetime", instant)]
  | instant => some []
  | _ => none

def ownPart? (clock : Moment) (v : PathValue) (name : String) : Option PathValue :=
  if name = "__class__" then some (kind v.kindOf)
  else if name = "__dict__" ∧ v.fields?.isSome then v.fields?.map record
  else if name = "__weakref__" then some nothing
  else
    match v with
    | instant => datePart? clock (zone .world) name
    | date m | day m => datePart? m nothing name
    | span s =>
        match name with
        | "days" => some (whole s.days)
        | "seconds" => some (whole s.seconds)
        | "microseconds" => some (whole s.microseconds)
        | _ => none
    | whole n => wholePart? n name
    | flag b => wholePart? (if b then 1 else 0) name
    | kind k => kindPart? k name
    | selection k choice =>
        match name with
        | "__origin__" => some (kind k)
        | "__args__" => some (row choice)
        | "__parameters__" => some (row [])
        | "__unpacked__" => some (flag false)
        | "__typing_unpacked_tuple_args__" => some nothing
        | _ => none
    | entry owner .routine member => routinePart? owner member name
    | entry owner _ member => entryPart? owner member name
    | bound owner .routine member self =>
        match name with
        | "__func__" => some (entry owner .routine member)
        | "__self__" => some self
        | "__doc__" => some nothing
        | _ => none
    | bound owner .operator member self =>
        if name = "__self__" then some self else entryPart? owner member name
    | bound _ sort member self => methodPart? sort member self name
    | code owner member => codePart? owner member name
    | _ => none

/-! ## Looking up -/

/-- How messages speak of a value whose part is missing. -/
def owner : PathValue → String
  | kind k => "type object '" ++ k.name ++ "'"
  | v => "'" ++ v.kindOf.name ++ "' object"

/-- The part of which kinds know, but which none of them has. -/
def unsetName : String := "__abstractmethods__"

def missing (v : PathValue) (name : String) : Template.Fault :=
  match v with
  | kind _ => if name = unsetName then .unsetPart name else .unknownPart v.owner name
  | _ => .unknownPart v.owner name

/-- A part, or the fault that it is missing. -/
def found (v : PathValue) (name : String) : Option PathValue → Except Template.Fault PathValue
  | some part => .ok part
  | none => .error (v.missing name)

/-- A part of a value like any other. -/
def plainPart (clock : Moment) (v : PathValue) (name : String) :
    Except Template.Fault PathValue :=
  let member := v.kindOf.member? name
  if member.any fun (_, sort) => sort.isPart then v.found name (v.ownPart? clock name)
  else
    let field := v.fields?.bind fun fields => fields.lookup name
    v.found name (field.or (member.map fun (owner, sort) => v.atValue owner sort name))

/-- A part of a kind: one that every kind has, or else a member of its
ancestry, or else a member of the kind of kinds. -/
def kindPart (clock : Moment) (k : PathKind) (name : String) : Except Template.Fault PathValue :=
  let ofKinds := PathKind.kind.member? name
  match ofKinds.filter fun (_, sort) => sort.isPart, k.member? name with
  | none, some (owner, sort) => .ok (atKind k owner sort name)
  | _, _ => plainPart clock (kind k) name

/-- What a selection knows by itself. -/
def ofSelection : List String :=
  ["__class__", "__origin__", "__args__", "__unpacked__", "__parameters__",
   "__typing_unpacked_tuple_args__", "__mro_entries__", "__reduce_ex__", "__reduce__",
   "__copy__", "__deepcopy__"]

def part (clock : Moment) (v : PathValue) (name : String) : Except Template.Fault PathValue :=
  match v with
  | kind k => kindPart clock k name
  | selection k _ =>
      if ofSelection.contains name then plainPart clock v name else kindPart clock k name
  | bound owner .routine member _ =>
      if (v.kindOf.member? name).isSome then plainPart clock v name
      else plainPart clock (entry owner .routine member) name
  | _ => plainPart clock v name

end PathValue
end LoadReport
