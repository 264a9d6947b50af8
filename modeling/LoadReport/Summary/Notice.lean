import LoadReport.Fault
import LoadReport.Number.Text

/-!
# Notices

While a summary is computed, remarks are made about what was left out. A
computation that makes remarks has two outputs that do not depend on one
another's success: the list of notices so far, and either a result or the
fault that ended it. A fault does not take the notices back.

`Noted` is that pair, with the sequencing under which the second step runs
only if the first has a result, and its notices follow those of the first.
-/

namespace LoadReport

/-- A remark about what a summary leaves out. -/
inductive Notice
  | excluded (samples : Int)
  | noSamples
  | dropped (percentile : Number)
  | unresolved (percentile : Number) (rank : Int)
deriving DecidableEq

def Notice.text : Notice → String
  | excluded samples =>
      "Excluded " ++ toString samples ++ " samples with non-countable keys"
  | noSamples => "Histogram holds no samples, no statistics available yet"
  | dropped p => "Dropping percentile " ++ p.text ++ " outside of [0, 1]"
  | unresolved p rank =>
      "Percentile " ++ p.text ++ " (rank " ++ toString rank ++ ") could not be resolved"

/-- The notice that samples were excluded. Counts add up without a limit, so
there may be more digits than are written, and then no notice can be given. -/
def Notice.ofExcluded (samples : Int) : Except Fault Notice :=
  if samples.natAbs < 10 ^ digitLimit then .ok (.excluded samples) else .error .tooManyDigits

/-- The notice that a fraction was dropped. What is asked for may be any number,
so this notice too may be impossible to give. One that is unresolved is in range,
and its rank is the whole part of a binary64 number: these are always short. -/
def Notice.ofDropped (percentile : Number) : Except Fault Notice :=
  if percentile.isWritable then .ok (.dropped percentile) else .error .tooManyDigits

theorem Notice.ofExcluded_eq_ok_iff {samples : Int} {notice : Notice} :
    ofExcluded samples = .ok notice ↔
      samples.natAbs < 10 ^ digitLimit ∧ notice = excluded samples := by
  unfold ofExcluded
  split
  · next hshort => exact ⟨fun h => ⟨hshort, (Except.ok.inj h).symm⟩, fun h => h.2 ▸ rfl⟩
  · next hlong => exact ⟨nofun, fun h => absurd h.1 hlong⟩

theorem Notice.ofDropped_eq_ok_iff {p : Number} {notice : Notice} :
    ofDropped p = .ok notice ↔ p.isWritable = true ∧ notice = dropped p := by
  unfold ofDropped
  cases p.isWritable <;> simp [eq_comm]

theorem Notice.ofDropped_eq_error_iff {p : Number} {fault : Fault} :
    ofDropped p = .error fault ↔ p.isWritable = false ∧ fault = .tooManyDigits := by
  unfold ofDropped
  cases p.isWritable <;> simp [eq_comm]

/-- A computation that makes notices and may fail. -/
structure Noted (α : Type) where
  notices : List Notice
  outcome : Except Fault α

namespace Noted

variable {α β : Type}

/-- Runs `next` on the result of `x`, if there is one. -/
def bind (x : Noted α) (next : α → Noted β) : Noted β :=
  match x.outcome with
  | .ok a => { notices := x.notices ++ (next a).notices, outcome := (next a).outcome }
  | .error fault => { notices := x.notices, outcome := .error fault }

instance : Monad Noted where
  pure a := { notices := [], outcome := .ok a }
  bind := bind

def note (notice : Notice) : Noted Unit :=
  { notices := [notice], outcome := .ok () }

/-- A computation that makes no notices. -/
def lift (x : Except Fault α) : Noted α :=
  { notices := [], outcome := x }

/-! ## What sequencing does to each output -/

@[simp] theorem pure_notices (a : α) : (pure a : Noted α).notices = [] := rfl

@[simp] theorem pure_outcome (a : α) : (pure a : Noted α).outcome = .ok a := rfl

@[simp] theorem note_notices (n : Notice) : (note n).notices = [n] := rfl

@[simp] theorem note_outcome (n : Notice) : (note n).outcome = .ok () := rfl

@[simp] theorem lift_notices (x : Except Fault α) : (lift x).notices = [] := rfl

@[simp] theorem lift_outcome (x : Except Fault α) : (lift x).outcome = x := rfl

theorem bind_of_ok {x : Noted α} {next : α → Noted β} {a : α} (h : x.outcome = .ok a) :
    x >>= next = ⟨x.notices ++ (next a).notices, (next a).outcome⟩ := by
  show bind x next = _
  simp [bind, h]

theorem bind_of_error {x : Noted α} {next : α → Noted β} {fault : Fault}
    (h : x.outcome = .error fault) : x >>= next = ⟨x.notices, .error fault⟩ := by
  show bind x next = _
  simp [bind, h]

end Noted
end LoadReport
