import LoadReport.Table

/-!
# Keys of a table

What a write does to the keys: if the key is present, under the sameness of
the table, all keys stay as they are, and otherwise the key is appended
(`keys_update`). So a key never changes its place or its form, and keys that
are pairwise different stay so (`distinct_update`).

Sameness need not be reflexive. A key that differs from itself is never
found again, and every write under it appends an entry; nothing here asks
for more than what `keys_update` says of that case.
-/

namespace LoadReport
namespace Table

variable {κ ν : Type} {same : κ → κ → Bool}

def keys (t : Table κ ν) : List κ := t.map (·.1)

def Distinct (same : κ → κ → Bool) (t : Table κ ν) : Prop :=
  t.keys.Pairwise fun a b => same a b = false

@[simp] theorem keys_nil : keys ([] : Table κ ν) = [] := rfl

@[simp] theorem keys_cons (k : κ) (v : ν) (t : Table κ ν) : keys ((k, v) :: t) = k :: t.keys := rfl

theorem mem_keys {t : Table κ ν} {k : κ} : k ∈ t.keys ↔ ∃ v, (k, v) ∈ t := by
  simp [keys]

theorem contains_cons (same : κ → κ → Bool) (key k : κ) (v : ν) (t : Table κ ν) :
    contains same key ((k, v) :: t) = (same k key || contains same key t) := rfl

theorem contains_iff {t : Table κ ν} {key : κ} :
    contains same key t = true ↔ ∃ k ∈ t.keys, same k key = true := by
  simp [contains, keys]

/-! ## Writing -/

theorem keys_update (same : κ → κ → Bool) (key : κ) (f : Option ν → ν) (t : Table κ ν) :
    (update same key f t).keys = if contains same key t then t.keys else t.keys ++ [key] := by
  induction t with
  | nil => rfl
  | cons entry rest ih =>
      obtain ⟨k, v⟩ := entry
      rw [contains_cons]
      unfold update
      cases h : same k key with
      | true => simp
      | false =>
          simp only [Bool.false_eq_true, if_false, Bool.false_or, keys_cons, ih]
          split <;> rfl

theorem mem_keys_update {key k : κ} {f : Option ν → ν} {t : Table κ ν}
    (h : k ∈ (update same key f t).keys) : k ∈ t.keys ∨ k = key := by
  rw [keys_update] at h
  split at h
  · exact Or.inl h
  · simpa using h

theorem distinct_update {key : κ} {f : Option ν → ν} {t : Table κ ν} (h : Distinct same t) :
    Distinct same (update same key f t) := by
  unfold Distinct
  rw [keys_update]
  split
  · exact h
  · next hnew =>
      refine List.pairwise_append.mpr ⟨h, List.pairwise_singleton _ _, fun a ha b hb => ?_⟩
      obtain rfl := List.mem_singleton.mp hb
      cases hab : same a b with
      | false => rfl
      | true => exact absurd (contains_iff.mpr ⟨a, ha, hab⟩) hnew

theorem update_of_not_contains {key : κ} {t : Table κ ν} (f : Option ν → ν)
    (h : contains same key t = false) : update same key f t = t ++ [(key, f none)] := by
  induction t with
  | nil => rfl
  | cons entry rest ih =>
      obtain ⟨k, v⟩ := entry
      rw [contains_cons, Bool.or_eq_false_iff] at h
      obtain ⟨hk, hrest⟩ := h
      simp [update, hk, ih hrest]

/-- Values may be converted before a write or after it, if the write computes
its value alike. -/
theorem map_update {μ : Type} {key : κ} {φ : ν → μ} {f : Option ν → ν} {g : Option μ → μ}
    (h : ∀ old, φ (f old) = g (old.map φ)) (t : Table κ ν) :
    ((update same key f t).map fun entry => (entry.1, φ entry.2))
      = update same key g (t.map fun entry => (entry.1, φ entry.2)) := by
  induction t with
  | nil => simp [update, h]
  | cons entry rest ih =>
      obtain ⟨k, v⟩ := entry
      rw [List.map_cons, update, update]
      cases same k key with
      | true => simp [h]
      | false => simp [ih]

/-- A write is not seen by a selection of entries that leaves out its key
and every key that is the same. -/
theorem filter_update {key : κ} {p : κ → Bool} (f : Option ν → ν) (hkey : p key = false)
    (hsame : ∀ k, same k key = true → p k = false) (t : Table κ ν) :
    ((update same key f t).filter fun entry => p entry.1) = t.filter fun entry => p entry.1 := by
  induction t with
  | nil => simp [update, hkey]
  | cons entry rest ih =>
      obtain ⟨k, v⟩ := entry
      unfold update
      cases h : same k key with
      | true => simp [hsame k h]
      | false => simp [List.filter_cons, ih]

/-- After a write a key is found if it was before, or if it is the same as
the key written. -/
theorem contains_update
    (htrans : ∀ {a b c}, same a b = true → same b c = true → same a c = true)
    (key : κ) (f : Option ν → ν) (t : Table κ ν) (other : κ) :
    contains same other (update same key f t) = (contains same other t || same key other) := by
  rw [Bool.eq_iff_iff, Bool.or_eq_true, contains_iff, contains_iff, keys_update]
  split
  · next hold =>
      refine ⟨Or.inl, ?_⟩
      rintro (h | h)
      · exact h
      · obtain ⟨k, hk, hkey⟩ := contains_iff.mp hold
        exact ⟨k, hk, htrans hkey h⟩
  · simp only [List.mem_append, List.mem_singleton, or_and_right, exists_or, exists_eq_left]

/-! ## Writing many keys -/

/-- Adds a key to a list, unless it is the same as one that is there. -/
def addKey (same : κ → κ → Bool) (ks : List κ) (key : κ) : List κ :=
  if ks.any fun k => same k key then ks else ks ++ [key]

theorem keys_update_eq_addKey (same : κ → κ → Bool) (key : κ) (f : Option ν → ν) (t : Table κ ν) :
    (update same key f t).keys = addKey same t.keys key := by
  rw [keys_update, addKey, keys, List.any_map]
  rfl

/-- What is added are the first occurrences of the keys that are not there. -/
theorem foldl_addKey (hcomm : ∀ a b, same a b = same b a) (new old : List κ) :
    new.foldl (addKey same) old
      = old ++ (new.filter fun key => !old.any fun k => same k key).eraseDupsBy same := by
  induction new generalizing old with
  | nil => simp
  | cons key new ih =>
      rw [List.foldl_cons, ih, addKey]
      cases hold : old.any fun k => same k key with
      | true => simp [hold]
      | false =>
          have hlater : ∀ other : κ, (!(old ++ [key]).any fun k => same k other)
              = (decide (same other key = false) && !old.any fun k => same k other) := by
            intro other
            rw [List.any_append, hcomm other key]
            simp only [List.any_cons, List.any_nil, Bool.or_false]
            cases same key other <;> simp
          simp only [Bool.false_eq_true, if_false, hlater]
          rw [List.filter_cons_of_pos (by simp [hold]), List.eraseDupsBy_cons, List.filter_filter,
            List.append_assoc, List.singleton_append]

theorem foldl_addKey_nil (hcomm : ∀ a b, same a b = same b a) (new : List κ) :
    new.foldl (addKey same) [] = new.eraseDupsBy same := by
  have hall : (new.filter fun key => !([] : List κ).any fun k => same k key) = new :=
    List.filter_eq_self.mpr fun _ _ => rfl
  rw [foldl_addKey hcomm, hall, List.nil_append]

theorem keys_foldl_update (hcomm : ∀ a b, same a b = same b a) (f : κ → Option ν → ν)
    (new : List κ) :
    keys (new.foldl (fun t key => update same key (f key) t) ([] : Table κ ν))
      = new.eraseDupsBy same := by
  have hkeys : new.foldl (addKey same) (keys ([] : Table κ ν))
      = keys (new.foldl (fun t key => update same key (f key) t) []) :=
    List.foldl_hom keys fun t key => (keys_update_eq_addKey same key (f key) t).symm
  rw [← hkeys, keys_nil, foldl_addKey_nil hcomm]

/-! ## Writing a table anew -/

/-- Entries that are written one after another under distinct keys are all
appended, if a write under a new key makes the entry. -/
theorem foldl_update_of_distinct {f : ν → Option ν → ν} (hf : ∀ v, f v none = v)
    {written rest : Table κ ν} (h : Distinct same (written ++ rest)) :
    rest.foldl (fun t entry => update same entry.1 (f entry.2) t) written = written ++ rest := by
  induction rest generalizing written with
  | nil => exact (List.append_nil written).symm
  | cons entry rest ih =>
      have hnew : contains same entry.1 written = false := by
        rw [Bool.eq_false_iff, ne_eq, contains_iff]
        rintro ⟨k, hk, hsame⟩
        rw [Distinct, keys, List.map_append, List.pairwise_append] at h
        rw [h.2.2 k hk entry.1 (List.mem_cons_self ..)] at hsame
        cases hsame
      have hmoved : written ++ entry :: rest = (written ++ [entry]) ++ rest := by simp
      rw [List.foldl_cons, update_of_not_contains _ hnew, hf, hmoved]
      exact ih (hmoved ▸ h)

/-- A table with distinct keys is what its entries give when they are written
one after another. A key that differs from itself is written as often as it
occurs. -/
theorem ofPairs_of_distinct {t : Table κ ν} (h : Distinct same t) : ofPairs same t = t :=
  foldl_update_of_distinct (f := fun v _ => v) (fun _ => rfl) (show Distinct same ([] ++ t) from h)

/-! ## Reading -/

theorem get?_map {μ : Type} (f : ν → μ) (key : κ) (t : Table κ ν) :
    get? same key (t.map fun entry => (entry.1, f entry.2)) = (get? same key t).map f := by
  induction t with
  | nil => rfl
  | cons entry rest ih =>
      obtain ⟨k, v⟩ := entry
      rw [List.map_cons, get?_cons, get?_cons, ih]
      cases same k key <;> rfl

/-- The entries that a key is the same as hold its value and nothing else:
with distinct keys there is at most one of them. -/
theorem filter_same_of_distinct (hsymm : ∀ {a b}, same a b = true → same b a = true)
    (htrans : ∀ {a b c}, same a b = true → same b c = true → same a c = true)
    {t : Table κ ν} (h : Distinct same t) (key : κ) :
    ((t.filter fun entry => same entry.1 key).map (·.2)) = (get? same key t).toList := by
  induction t with
  | nil => rfl
  | cons entry rest ih =>
      obtain ⟨k, v⟩ := entry
      obtain ⟨hk, hrest⟩ := List.pairwise_cons.mp h
      rw [get?_cons, List.filter_cons]
      cases hsame : same k key with
      | false => simpa using ih hrest
      | true =>
          have hnone : (rest.filter fun entry => same entry.1 key) = [] := by
            rw [List.filter_eq_nil_iff]
            intro e he hek
            have hdiff := hk e.1 (mem_keys.mpr ⟨e.2, he⟩)
            rw [htrans hsame (hsymm hek)] at hdiff
            cases hdiff
          simp [hnone]

end Table
end LoadReport
