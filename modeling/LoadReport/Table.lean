/-!
# Tables

A table is a list of entries in the order in which their keys first came
up. Which keys count as the same is a parameter: whole numbers compare by
equality, numbers of mixed kinds by value, and a key may even differ from
itself, in which case every write makes a new entry.

**First key, last value.** Writing under a key that is already present
keeps the place of the entry and the form of the key, and replaces the
value. That is what `update` states for any way of computing the new value
from the old one; `put` and `ofPairs` are the plain writes.
-/

namespace LoadReport

/-- Entries in order of first appearance. -/
abbrev Table (κ ν : Type) := List (κ × ν)

namespace Table

variable {κ ν : Type}

/-- Rewrites the entry of a key, or appends one. `f` receives the old
value, if there is one. -/
def update (same : κ → κ → Bool) (key : κ) (f : Option ν → ν) : Table κ ν → Table κ ν
  | [] => [(key, f none)]
  | (k, v) :: rest =>
      if same k key then (k, f (some v)) :: rest
      else (k, v) :: update same key f rest

/-- Writes a value under a key. -/
def put (same : κ → κ → Bool) (key : κ) (value : ν) (t : Table κ ν) : Table κ ν :=
  update same key (fun _ => value) t

def get? (same : κ → κ → Bool) (key : κ) (t : Table κ ν) : Option ν :=
  (t.find? fun entry => same entry.1 key).map (·.2)

def contains (same : κ → κ → Bool) (key : κ) (t : Table κ ν) : Bool :=
  t.any fun entry => same entry.1 key

/-- The table of a list of writes, in order. -/
def ofPairs (same : κ → κ → Bool) (pairs : List (κ × ν)) : Table κ ν :=
  pairs.foldl (fun t entry => put same entry.1 entry.2 t) []

/-! ## Reading back an update -/

theorem get?_nil (same : κ → κ → Bool) (key : κ) : get? same key ([] : Table κ ν) = none := rfl

theorem get?_cons (same : κ → κ → Bool) (key k : κ) (v : ν) (t : Table κ ν) :
    get? same key ((k, v) :: t) = if same k key then some v else get? same key t := by
  unfold get?
  rw [List.find?_cons]
  cases h : same k key <;> simp

/-- A key equal to itself reads back what was written. -/
theorem get?_update_self (same : κ → κ → Bool) (key : κ) (f : Option ν → ν)
    (hkey : same key key = true) (t : Table κ ν) :
    get? same key (update same key f t) = some (f (get? same key t)) := by
  induction t with
  | nil => simp [update, get?_cons, get?_nil, hkey]
  | cons entry rest ih =>
      obtain ⟨k, v⟩ := entry
      unfold update
      cases h : same k key with
      | true => simp [get?_cons, h]
      | false => simp [get?_cons, h, ih]

/-- Present means that a look-up finds something. -/
theorem contains_eq_isSome (same : κ → κ → Bool) (key : κ) (t : Table κ ν) :
    contains same key t = (get? same key t).isSome := by
  induction t with
  | nil => rfl
  | cons entry rest ih =>
      obtain ⟨k, v⟩ := entry
      rw [get?_cons]
      unfold contains at *
      cases h : same k key <;> simp [h, ih]

end Table
end LoadReport
