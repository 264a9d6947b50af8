/-!
# Computations that may fail

Inversion: a computation that has a result has one at each of its steps, and
one that fails does so at one of them. With these laws nothing has to look at
how the steps are put together.

Where all that can be objected to is listed in the order in which it is looked
at, a computation is known by its list (`Except.Reports`): it fails with the
first objection, and the lists of consecutive parts are appended.
-/

namespace LoadReport

theorem Except.ok_bind {ε α β : Type} (a : α) (next : α → Except ε β) :
    (.ok a : Except ε α) >>= next = next a := rfl

theorem Except.bind_eq_ok_iff {ε α β : Type} {x : Except ε α} {next : α → Except ε β} {b : β} :
    x >>= next = .ok b ↔ ∃ a, x = .ok a ∧ next a = .ok b := by
  constructor
  · intro h
    cases x with
    | error _ => cases h
    | ok a => exact ⟨a, rfl, h⟩
  · rintro ⟨a, rfl, h⟩
    exact h

/-- A check in front of a computation. -/
theorem Except.andThen_eq_ok_iff {ε β : Type} {check : Except ε Unit} {rest : Except ε β} {b : β} :
    (check >>= fun _ => rest) = .ok b ↔ check = .ok () ∧ rest = .ok b := by
  rw [Except.bind_eq_ok_iff]
  exact ⟨fun ⟨_, hcheck, hrest⟩ => ⟨hcheck, hrest⟩, fun ⟨hcheck, hrest⟩ => ⟨(), hcheck, hrest⟩⟩

theorem Except.bind_eq_error_iff {ε α β : Type} {x : Except ε α} {next : α → Except ε β} {e : ε} :
    x >>= next = .error e ↔ x = .error e ∨ ∃ a, x = .ok a ∧ next a = .error e := by
  cases x with
  | error e' =>
      constructor
      · intro h
        obtain rfl := Except.error.inj h
        exact Or.inl rfl
      · rintro (h | ⟨a, ha, -⟩)
        · obtain rfl := Except.error.inj h
          rfl
        · cases ha
  | ok a =>
      constructor
      · intro h
        exact Or.inr ⟨a, rfl, h⟩
      · rintro (h | ⟨_, ⟨⟩, h⟩)
        · cases h
        · exact h

theorem Except.map_eq_ok_iff {ε α β : Type} {x : Except ε α} {f : α → β} {b : β} :
    x.map f = .ok b ↔ ∃ a, x = .ok a ∧ f a = b := by
  cases x with
  | error e => exact ⟨fun h => (by cases h), fun ⟨_, h, _⟩ => (by cases h)⟩
  | ok a =>
      constructor
      · intro h
        exact ⟨a, rfl, Except.ok.inj h⟩
      · rintro ⟨_, ⟨⟩, rfl⟩
        rfl

theorem Except.map_eq_error_iff {ε α β : Type} {x : Except ε α} {f : α → β} {e : ε} :
    x.map f = .error e ↔ x = .error e := by
  cases x with
  | error e' =>
      constructor
      · intro h
        exact congrArg Except.error (Except.error.inj h)
      · intro h
        exact congrArg Except.error (Except.error.inj h)
  | ok a => exact ⟨fun h => (by cases h), fun h => (by cases h)⟩

theorem Except.toOption_eq_some_iff {ε α : Type} {x : Except ε α} {a : α} :
    x.toOption = some a ↔ x = .ok a := by
  cases x <;> simp [Except.toOption]

theorem Except.toOption_eq_none_iff {ε α : Type} {x : Except ε α} :
    x.toOption = none ↔ ∃ e, x = .error e := by
  cases x <;> simp [Except.toOption]

theorem Except.mapM_eq_ok_iff {ε α β : Type} {f : α → Except ε β} {xs : List α} {ys : List β} :
    xs.mapM f = .ok ys ↔ xs.map f = ys.map .ok := by
  induction xs generalizing ys with
  | nil => cases ys <;> simp [pure, Except.pure]
  | cons x xs ih =>
      rw [List.mapM_cons, Except.bind_eq_ok_iff]
      constructor
      · rintro ⟨b, hb, h⟩
        obtain ⟨bs, hbs, h⟩ := Except.bind_eq_ok_iff.mp h
        obtain rfl : b :: bs = ys := Except.ok.inj h
        rw [List.map_cons, List.map_cons, hb, ih.mp hbs]
      · intro h
        cases ys with
        | nil => cases h
        | cons b bs =>
            obtain ⟨hb, hbs⟩ := List.cons.inj h
            exact ⟨b, hb, Except.bind_eq_ok_iff.mpr ⟨bs, ih.mpr hbs, rfl⟩⟩

theorem Except.exists_of_mem_mapM {ε α β : Type} {f : α → Except ε β} {xs : List α} {ys : List β}
    (h : xs.mapM f = .ok ys) {y : β} (hy : y ∈ ys) : ∃ x ∈ xs, f x = .ok y := by
  have hmem : (.ok y : Except ε β) ∈ xs.map f :=
    Except.mapM_eq_ok_iff.mp h ▸ List.mem_map_of_mem hy
  exact List.mem_map.mp hmem

theorem Except.exists_mem_of_mapM {ε α β : Type} {f : α → Except ε β} {xs : List α} {ys : List β}
    (h : xs.mapM f = .ok ys) {x : α} (hx : x ∈ xs) : ∃ y ∈ ys, f x = .ok y := by
  have hmem : f x ∈ ys.map (.ok : β → Except ε β) :=
    Except.mapM_eq_ok_iff.mp h ▸ List.mem_map_of_mem hx
  obtain ⟨y, hy, hfx⟩ := List.mem_map.mp hmem
  exact ⟨y, hy, hfx.symm⟩

/-- Two readings of a traversal, one before and one after it. -/
theorem Except.map_eq_of_mapM {ε α β γ : Type} {f : α → Except ε β} {before : α → γ}
    {after : β → γ} {xs : List α} {ys : List β} (h : xs.mapM f = .ok ys)
    (hread : ∀ x ∈ xs, ∀ y, f x = .ok y → after y = before x) :
    ys.map after = xs.map before := by
  rw [Except.mapM_eq_ok_iff] at h
  induction xs generalizing ys with
  | nil => simpa using h.symm
  | cons x xs ih =>
      cases ys with
      | nil => cases h
      | cons y ys =>
          obtain ⟨hx, hxs⟩ := List.cons.inj h
          rw [List.map_cons, List.map_cons, hread x (List.mem_cons_self ..) y hx,
            ih hxs fun z hz => hread z (List.mem_cons_of_mem _ hz)]

theorem Except.exists_of_mapM_eq_error {ε α β : Type} {f : α → Except ε β} {xs : List α} {e : ε}
    (h : xs.mapM f = .error e) : ∃ x ∈ xs, f x = .error e := by
  induction xs with
  | nil => cases h
  | cons x xs ih =>
      rw [List.mapM_cons] at h
      rcases Except.bind_eq_error_iff.mp h with h | ⟨y, -, h⟩
      · exact ⟨x, List.mem_cons_self .., h⟩
      · rcases Except.bind_eq_error_iff.mp h with h | ⟨ys, -, h⟩
        · obtain ⟨z, hz, hfail⟩ := ih h
          exact ⟨z, List.mem_cons_of_mem _ hz, hfail⟩
        · cases h

/-- A traversal succeeds if every element does, and what is known of each
result is known of all. -/
theorem Except.exists_mapM {ε α β : Type} {f : α → Except ε β} {good : β → Prop} {xs : List α}
    (h : ∀ x ∈ xs, ∃ y, f x = .ok y ∧ good y) : ∃ ys, xs.mapM f = .ok ys ∧ ∀ y ∈ ys, good y := by
  induction xs with
  | nil => exact ⟨[], rfl, fun y hy => absurd hy List.not_mem_nil⟩
  | cons x xs ih =>
      obtain ⟨y, hy, hgood⟩ := h x (List.mem_cons_self ..)
      obtain ⟨ys, hys, hall⟩ := ih fun z hz => h z (List.mem_cons_of_mem _ hz)
      refine ⟨y :: ys, ?_, fun z hz => ?_⟩
      · rw [List.mapM_cons]
        exact Except.bind_eq_ok_iff.mpr ⟨y, hy, Except.bind_eq_ok_iff.mpr ⟨ys, hys, rfl⟩⟩
      · rcases List.mem_cons.mp hz with rfl | hz
        · exact hgood
        · exact hall z hz

/-! ## First objections -/

/-- A computation fails with the first of some objections, and has a result if
there are none. -/
def Except.Reports {ε α : Type} (x : Except ε α) (objections : List ε) : Prop :=
  match x with
  | .ok _ => objections = []
  | .error e => objections.head? = some e

namespace Except.Reports

variable {ε α β : Type} {x : Except ε α} {objections : List ε}

/-- One part after another. -/
theorem bind {next : α → Except ε β} {later : List ε} (h : Except.Reports x objections)
    (hnext : ∀ a, x = .ok a → Except.Reports (next a) later) :
    Except.Reports (x >>= next) (objections ++ later) := by
  cases x with
  | ok a =>
      obtain rfl : objections = [] := h
      exact hnext a rfl
  | error e =>
      have hhead : objections.head? = some e := h
      show (objections ++ later).head? = some e
      rw [List.head?_append, hhead]
      rfl

/-- One element after another. -/
theorem mapM {f : α → Except ε β} {found : α → List ε} {xs : List α}
    (h : ∀ x ∈ xs, Except.Reports (f x) (found x)) :
    Except.Reports (xs.mapM f) (xs.flatMap found) := by
  induction xs with
  | nil => exact rfl
  | cons x xs ih =>
      rw [List.mapM_cons, List.flatMap_cons]
      refine (h x (List.mem_cons_self ..)).bind fun y _ => ?_
      rw [← List.append_nil (xs.flatMap found)]
      exact (ih fun z hz => h z (List.mem_cons_of_mem _ hz)).bind fun ys _ => rfl

end Except.Reports

end LoadReport
