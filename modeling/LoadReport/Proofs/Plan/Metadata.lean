import LoadReport.Plan.Metadata
import LoadReport.Proofs.Except

/-!
# Plans survive being stored

Writing and reading go through the fields of a plan separately, and treat
three of them in ways of their own: the two types, which are stored by their
labels, and the headers, which are stored part by part. So there are two facts
to be shown of these three, that reading undoes writing
(`typeOf_label`, `headersOf_stored`), and the rest is that no field is left
out on either side (`toPlan_stored`).

Plans are compared as data. That is more than equality by value: a number
keeps its kind, NaN included, and headers keep their order and their
repetitions.

A text in the place of a type has no label, not even if it spells one, and
then nothing is stored.
-/

namespace LoadReport
namespace Metadata

/-! ## Types and headers -/

theorem typeOf_label {α : Type} {label : α → String} {ofLabel? : String → Option α}
    (h : ∀ type, ofLabel? (label type) = some type) (error : Datum → MetadataError)
    (default type : α) :
    typeOf ofLabel? error default (some (.text (label type))) = .ok (.known type) := by
  simp only [typeOf, h]

/-- A header as it is written: with both parts. -/
def storedHeader (h : Header) : StoredHeader := { key := some h.key, value := some h.value }

theorem headersOf_stored (hs : List Header) :
    headersOf (some (some (hs.map storedHeader))) = .ok hs := by
  refine Except.mapM_eq_ok_iff.mpr ?_
  rw [List.map_map]
  rfl

/-! ## The whole plan -/

/-- What is written of a plan under the labels of its types. -/
def stored (p : Plan) (testLabel clientLabel : String) : Metadata where
  url := some p.url
  connections := some p.connections
  testType := some (.text testLabel)
  requests := some p.requests
  duration := some p.duration
  method := some p.method
  headers := some (some (p.headers.map storedHeader))
  body := some p.body
  bodyFile := some p.bodyFile
  certPath := some p.certPath
  keyPath := some p.keyPath
  stream := some p.stream
  timeout := some p.timeout
  clientType := some (.text clientLabel)
  rate := some p.rate

theorem ofPlan_of_known {p : Plan} {test : TestType} {client : ClientType}
    (htest : p.testType = .known test) (hclient : p.clientType = .known client) :
    ofPlan p = .ok (stored p test.label client.label) := by
  unfold ofPlan
  rw [htest, hclient]
  rfl

theorem toPlan_stored {p : Plan} {test : TestType} {client : ClientType}
    (htest : p.testType = .known test) (hclient : p.clientType = .known client) :
    toPlan (stored p test.label client.label) = .ok p := by
  unfold toPlan
  simp only [stored, typeOf_label TestType.ofLabel?_label, typeOf_label ClientType.ofLabel?_label,
    headersOf_stored, Except.ok_bind]
  cases p
  obtain rfl := htest
  obtain rfl := hclient
  rfl

theorem ofPlan_of_text {p : Plan}
    (h : (∃ text, p.testType = .text text) ∨ ∃ text, p.clientType = .text text) :
    ofPlan p = .error .noLabel := by
  unfold ofPlan
  rcases h with ⟨text, htest⟩ | ⟨text, hclient⟩
  · rw [htest]
    rfl
  · rw [hclient]
    cases p.testType with
    | known test => rfl
    | text _ => rfl

/-- **A plan that can be stored is read back as it was**, and it can be stored
unless a text stands in the place of one of its types. -/
theorem toPlan_ofPlan (p : Plan) :
    (∀ test client, p.testType = .known test → p.clientType = .known client →
      ∃ m, ofPlan p = .ok m ∧ toPlan m = .ok p)
    ∧ ((∃ text, p.testType = .text text) ∨ (∃ text, p.clientType = .text text) →
      ofPlan p = .error .noLabel) :=
  ⟨fun _ _ htest hclient => ⟨_, ofPlan_of_known htest hclient, toPlan_stored htest hclient⟩,
    ofPlan_of_text⟩

/-- A counted test with NaN for its duration, a rate beyond every binary64
number and the same header twice; then a client type that only spells a
label. -/
theorem toPlan_ofPlan_repeated :
    (∃ m, ofPlan { url := "", testType := .known .byRequestCount, duration := .float .nan,
                   headers := [⟨"a", "1"⟩, ⟨"b", ""⟩, ⟨"a", "1"⟩],
                   rate := some (.int (2 ^ 2000)) } = .ok m
      ∧ toPlan m = .ok { url := "", testType := .known .byRequestCount, duration := .float .nan,
                         headers := [⟨"a", "1"⟩, ⟨"b", ""⟩, ⟨"a", "1"⟩],
                         rate := some (.int (2 ^ 2000)) })
    ∧ ofPlan { url := "", clientType := .text "fast" } = .error .noLabel :=
  ⟨(toPlan_ofPlan _).1 .byRequestCount .fast rfl rfl,
    (toPlan_ofPlan { url := "", clientType := .text "fast" }).2 (Or.inr ⟨"fast", rfl⟩)⟩

end Metadata
end LoadReport
