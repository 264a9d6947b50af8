import LoadReport.Datum
import LoadReport.Plan.Basic

/-!
# Metadata of plans

Metadata is the form in which plans are stored beside results: a mapping
from field names to plain values, where types are given by their labels and
headers as lists of small mappings.

Written metadata has every field. Metadata that is read may lack any of
them but the URL, and may be damaged: a label may be any value that is no
label, headers may be missing a part, and there may be fields that no plan
has. Damage is reported in a fixed order: test type, client type, headers
from first to last, unknown fields, missing URL.
-/

namespace LoadReport

/-- A header as it is stored. -/
structure StoredHeader where
  key : Option String := none
  value : Option String := none
deriving DecidableEq, Repr

/-- A stored plan: each field is absent or has a value. The headers and the
rate may be present without a value. -/
structure Metadata where
  url : Option String := none
  connections : Option Number := none
  testType : Option Datum := none
  requests : Option Number := none
  duration : Option Number := none
  method : Option String := none
  headers : Option (Option (List StoredHeader)) := none
  body : Option String := none
  bodyFile : Option String := none
  certPath : Option String := none
  keyPath : Option String := none
  stream : Option Bool := none
  timeout : Option Number := none
  clientType : Option Datum := none
  rate : Option (Option Number) := none
  /-- The names of fields that plans do not have, in order. -/
  unknown : List String := []
deriving DecidableEq

/-- Why a plan could not be stored, or not be read back. -/
inductive MetadataError
  | noLabel
  | testType (found : Datum)
  | clientType (found : Datum)
  | nullHeaders
  | headerWithoutKey
  | headerWithoutValue
  | unknownField (name : String)
  | missingUrl
deriving DecidableEq

/-- The name under which a plan takes itself. No field can have it, since it
is taken already. -/
def ownName : String := "self"

def MetadataError.message : MetadataError → String
  | noLabel => "'str' object has no attribute 'value'"
  | testType found => found.display ++ " is not a valid TestType"
  | clientType found => found.display ++ " is not a valid ClientType"
  | nullHeaders => "'NoneType' object is not iterable"
  | headerWithoutKey => "'key'"
  | headerWithoutValue => "'value'"
  | unknownField name =>
      (if name = ownName then "Spec.__init__() got multiple values for argument '"
        else "Spec.__init__() got an unexpected keyword argument '") ++ name ++ "'"
  | missingUrl => "Spec.__init__() missing 1 required positional argument: 'url'"

/-- A stored header with both its parts. -/
def StoredHeader.complete (h : StoredHeader) : Except MetadataError Header :=
  match h.key, h.value with
  | none, _ => .error .headerWithoutKey
  | some _, none => .error .headerWithoutValue
  | some key, some value => .ok { key, value }

namespace Metadata

/-! ## Writing -/

/-- The label of a declared type; a text in its place has none. -/
def labelOf {α : Type} (label : α → String) : Declared α → Except MetadataError Datum
  | .known type => .ok (.text (label type))
  | .text _ => .error .noLabel

/-- The stored form of a plan. -/
def ofPlan (p : Plan) : Except MetadataError Metadata := do
  let testType ← labelOf TestType.label p.testType
  let clientType ← labelOf ClientType.label p.clientType
  return {
    url := some p.url
    connections := some p.connections
    testType := some testType
    requests := some p.requests
    duration := some p.duration
    method := some p.method
    headers := some (some (p.headers.map fun h => { key := some h.key, value := some h.value }))
    body := some p.body
    bodyFile := some p.bodyFile
    certPath := some p.certPath
    keyPath := some p.keyPath
    stream := some p.stream
    timeout := some p.timeout
    clientType := some clientType
    rate := some p.rate }

/-! ## Reading -/

/-- The type that a label stands for, or the default if there is none. -/
def typeOf {α : Type} (ofLabel? : String → Option α) (error : Datum → MetadataError) (default : α) :
    Option Datum → Except MetadataError (Declared α)
  | none => .ok (.known default)
  | some (.text label) =>
      match ofLabel? label with
      | some type => .ok (.known type)
      | none => .error (error (.text label))
  | some found => .error (error found)

/-- The stored headers; there are none if the field is absent. -/
def headersOf : Option (Option (List StoredHeader)) → Except MetadataError (List Header)
  | none => .ok []
  | some none => .error .nullHeaders
  | some (some hs) => hs.mapM StoredHeader.complete

/-- The plan with a URL whose other fields are taken from metadata where
they are present. -/
def fill (m : Metadata) (url : String) (testType : Declared TestType)
    (clientType : Declared ClientType) (headers : List Header) : Plan :=
  let d : Plan := { url }
  { url, testType, clientType, headers
    connections := m.connections.getD d.connections
    requests := m.requests.getD d.requests
    duration := m.duration.getD d.duration
    method := m.method.getD d.method
    body := m.body.getD d.body
    bodyFile := m.bodyFile.getD d.bodyFile
    certPath := m.certPath.getD d.certPath
    keyPath := m.keyPath.getD d.keyPath
    stream := m.stream.getD d.stream
    timeout := m.timeout.getD d.timeout
    rate := m.rate.getD d.rate }

def toPlan (m : Metadata) : Except MetadataError Plan := do
  let testType ← typeOf TestType.ofLabel? .testType .byDuration m.testType
  let clientType ← typeOf ClientType.ofLabel? .clientType .fast m.clientType
  let headers ← headersOf m.headers
  match m.unknown, m.url with
  | name :: _, _ => .error (.unknownField name)
  | [], none => .error .missingUrl
  | [], some url => .ok (m.fill url testType clientType headers)

end Metadata
end LoadReport
