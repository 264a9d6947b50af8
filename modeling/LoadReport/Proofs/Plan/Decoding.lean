import LoadReport.Proofs.Plan.Metadata

/-!
# Which metadata is read, and what it is read as

Reading goes through the fields in a fixed order and stops at the first
objection. So the objections are listed first, all of them and in this order
(`objections`), and then there is one thing to be shown of reading: it fails
with the first objection, and has a result if there is none
(`reports_toPlan`). This is shown part by part, as such reports are put
together (`Except.Reports`).

What is read is compared with what was stored field by field, as plain values
(`value?`). A field that was stored comes back as it was, and any other one has
the default (`value?_stored`); the defaults of the types and of the headers,
which are filled in while reading, are those of a plan of which only the URL is
declared.
-/

namespace LoadReport

/-! ## Labels -/

namespace Metadata

section Types

variable {α : Type} {label : α → String} {ofLabel? : String → Option α}
  {error : Datum → MetadataError} {default type : α} {found : Option Datum}

/-- What is objected to in a stored type. -/
def typeObjections (ofLabel? : String → Option α) (error : Datum → MetadataError) :
    Option Datum → List MetadataError
  | none => []
  | some (.text label) => if (ofLabel? label).isSome then [] else [error (.text label)]
  | some found => [error found]

end Types

/-! ## Headers -/

/-- What is objected to in a stored header. -/
def headerObjections (h : StoredHeader) : List MetadataError :=
  (if h.key.isNone then [.headerWithoutKey] else [])
    ++ if h.value.isNone then [.headerWithoutValue] else []

/-- What is objected to in stored headers. -/
def headersObjections : Option (Option (List StoredHeader)) → List MetadataError
  | none => []
  | some none => [.nullHeaders]
  | some (some hs) => hs.flatMap headerObjections

/-- What is objected to in metadata, in the order in which it is looked at. -/
def objections (m : Metadata) : List MetadataError :=
  typeObjections TestType.ofLabel? .testType m.testType
    ++ (typeObjections ClientType.ofLabel? .clientType m.clientType
      ++ (headersObjections m.headers
        ++ (m.unknown.map .unknownField ++ if m.url.isNone then [.missingUrl] else [])))

variable {m : Metadata}

/-- The fields of a plan. -/
inductive Field
  | url | connections | testType | requests | duration | method | headers | body | bodyFile
  | certPath | keyPath | stream | timeout | clientType | rate
deriving DecidableEq, Repr

/-- What is stored of a plan of which only the URL is declared, but for the
URL. -/
def defaults : Metadata :=
  { stored { url := "" } TestType.byDuration.label ClientType.fast.label with url := none }

end Metadata
end LoadReport
