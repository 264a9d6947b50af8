import LoadReport.Number.Basic

/-!
# The order by value

`same`, `le`, `lt` and `sortsBefore` are Bool checks on positions; this file
is their Prop layer. Away from NaN they are one linear preorder whose
equivalence is `same`: two numbers that are at most each other are the same
by value, though they need not be equal as data (`1` and `1.0`, the two
zeros).

NaN is outside of that order. It is at most nothing and the same as nothing,
and `sortsBefore` lists it behind everything (`sortsBefore_of_isNan`), which
is why a fact about `le` always needs a number that stands somewhere. So a
comparison with a bound that fails does not say that the number is on the other
side of it: the number may be NaN (`lt_eq_false_iff`, `le_eq_false_iff`).
-/

namespace LoadReport
namespace Number

variable {a b c : Number}

theorem exists_position? (h : a.isNan = false) : ∃ p, a.position? = some p := by
  have hsome := position?_isSome a
  rw [h] at hsome
  exact Option.isSome_iff_exists.mp hsome

theorem isNan_of_position? {p : Position} (h : a.position? = some p) : a.isNan = false := by
  have hsome := position?_isSome a
  rw [h] at hsome
  simpa using hsome.symm

/-! ## Equality by value -/

theorem same_iff : a.same b = true ↔ ∃ p, a.position? = some p ∧ b.position? = some p := by
  unfold same
  constructor
  · intro h
    split at h
    · next p q ha hb =>
        obtain rfl : p = q := eq_of_beq h
        exact ⟨p, ha, hb⟩
    · cases h
  · rintro ⟨p, ha, hb⟩
    rw [ha, hb]
    exact beq_self_eq_true p

theorem position?_eq_of_same (h : a.same b = true) : a.position? = b.position? := by
  obtain ⟨p, ha, hb⟩ := same_iff.mp h
  rw [ha, hb]

theorem isNan_of_same_left (h : a.same b = true) : a.isNan = false := by
  obtain ⟨p, ha, -⟩ := same_iff.mp h
  exact isNan_of_position? ha

theorem isNan_of_same_right (h : a.same b = true) : b.isNan = false := by
  obtain ⟨p, -, hb⟩ := same_iff.mp h
  exact isNan_of_position? hb

theorem same_of_isNan (h : b.isNan = true) : a.same b = false := by
  cases hs : a.same b with
  | false => rfl
  | true => rw [isNan_of_same_right hs] at h; cases h

theorem same_refl (h : a.isNan = false) : a.same a = true := by
  rw [same_self, h]
  rfl

theorem same_symm (h : a.same b = true) : b.same a = true := by
  rwa [same_comm]

/-- What is asked of `a` by value may be asked of `b`. -/
theorem same_congr_left (h : a.same b = true) (c : Number) : a.same c = b.same c := by
  unfold same
  rw [position?_eq_of_same h]

theorem same_congr_right (h : a.same b = true) (c : Number) : c.same a = c.same b := by
  rw [same_comm c a, same_comm c b, same_congr_left h]

/-! ## At most, by value -/

theorem le_iff : a.le b = true ↔
    ∃ p q, a.position? = some p ∧ b.position? = some q ∧ p.le q = true := by
  unfold le
  constructor
  · intro h
    split at h
    · next p q ha hb => exact ⟨p, q, ha, hb, h⟩
    · cases h
  · rintro ⟨p, q, ha, hb, h⟩
    rw [ha, hb]
    exact h

theorem isNan_of_le_left (h : a.le b = true) : a.isNan = false := by
  obtain ⟨p, q, ha, -, -⟩ := le_iff.mp h
  exact isNan_of_position? ha

theorem isNan_of_le_right (h : a.le b = true) : b.isNan = false := by
  obtain ⟨p, q, -, hb, -⟩ := le_iff.mp h
  exact isNan_of_position? hb

theorem le_of_same (h : a.same b = true) : a.le b = true := by
  obtain ⟨p, ha, hb⟩ := same_iff.mp h
  exact le_iff.mpr ⟨p, p, ha, hb, p.le_refl⟩

theorem le_refl (h : a.isNan = false) : a.le a = true :=
  le_of_same (same_refl h)

theorem le_trans (hab : a.le b = true) (hbc : b.le c = true) : a.le c = true := by
  obtain ⟨p, q, ha, hb, hpq⟩ := le_iff.mp hab
  obtain ⟨q', r, hb', hc, hqr⟩ := le_iff.mp hbc
  obtain rfl : q = q' := Option.some.inj (hb.symm.trans hb')
  exact le_iff.mpr ⟨p, r, ha, hc, Position.le_trans hpq hqr⟩

/-- What is not at most a number leaves nothing above it that is. -/
theorem le_eq_false_of_le (hab : a.le b = true) (hac : a.le c = false) : b.le c = false := by
  cases hbc : b.le c with
  | false => rfl
  | true => rw [le_trans hab hbc] at hac; cases hac

theorem same_of_le_of_le (hab : a.le b = true) (hba : b.le a = true) : a.same b = true := by
  obtain ⟨p, q, ha, hb, hpq⟩ := le_iff.mp hab
  obtain ⟨q', p', hb', ha', hqp⟩ := le_iff.mp hba
  obtain rfl : p = p' := Option.some.inj (ha.symm.trans ha')
  obtain rfl : q = q' := Option.some.inj (hb.symm.trans hb')
  obtain rfl := Position.le_antisymm hpq hqp
  exact same_iff.mpr ⟨p, ha, hb⟩

theorem lt_of_le_of_not_same (hle : a.le b = true) (hdiff : a.same b = false) :
    a.lt b = true := by
  obtain ⟨p, q, ha, hb, hpq⟩ := le_iff.mp hle
  have hnot : ¬ q.le p = true := fun hqp => by
    rw [same_of_le_of_le hle (le_iff.mpr ⟨q, p, hb, ha, hqp⟩)] at hdiff
    cases hdiff
  simp only [lt, ha, hb]
  exact Position.lt_iff.mpr hnot

theorem le_congr_left (h : a.same b = true) (c : Number) : a.le c = b.le c := by
  unfold le
  rw [position?_eq_of_same h]

theorem le_congr_right (h : a.same b = true) (c : Number) : c.le a = c.le b := by
  unfold le
  rw [position?_eq_of_same h]

/-! ## Below, by value -/

theorem lt_iff : a.lt b = true ↔
    ∃ p q, a.position? = some p ∧ b.position? = some q ∧ p.lt q = true := by
  unfold lt
  constructor
  · intro h
    split at h
    · next p q ha hb => exact ⟨p, q, ha, hb, h⟩
    · cases h
  · rintro ⟨p, q, ha, hb, h⟩
    rw [ha, hb]
    exact h

theorem isNan_of_lt_left (h : a.lt b = true) : a.isNan = false := by
  obtain ⟨p, q, ha, -, -⟩ := lt_iff.mp h
  exact isNan_of_position? ha

theorem isNan_of_lt_right (h : a.lt b = true) : b.isNan = false := by
  obtain ⟨p, q, -, hb, -⟩ := lt_iff.mp h
  exact isNan_of_position? hb

/-- Away from NaN, below is not at least. -/
theorem lt_eq_not_le (ha : a.isNan = false) (hb : b.isNan = false) : a.lt b = !b.le a := by
  obtain ⟨p, hp⟩ := exists_position? ha
  obtain ⟨q, hq⟩ := exists_position? hb
  unfold lt le
  rw [hp, hq]
  rfl

/-- What is not below a bound is at least the bound, or it is NaN. -/
theorem lt_eq_false_iff (hb : b.isNan = false) :
    a.lt b = false ↔ a.isNan = true ∨ b.le a = true := by
  cases ha : a.isNan with
  | true =>
      have hlt : a.lt b = false := Bool.eq_false_iff.mpr fun h => by
        rw [isNan_of_lt_left h] at ha
        cases ha
      exact iff_of_true hlt (Or.inl rfl)
  | false =>
      rw [lt_eq_not_le ha hb, Bool.not_eq_false']
      exact ⟨Or.inr, fun h => h.resolve_left Bool.false_ne_true⟩

/-- What is not at most a bound is above the bound, or it is NaN. -/
theorem le_eq_false_iff (hb : b.isNan = false) :
    a.le b = false ↔ a.isNan = true ∨ b.lt a = true := by
  cases ha : a.isNan with
  | true =>
      have hle : a.le b = false := Bool.eq_false_iff.mpr fun h => by
        rw [isNan_of_le_left h] at ha
        cases ha
      exact iff_of_true hle (Or.inl rfl)
  | false =>
      rw [lt_eq_not_le hb ha, Bool.not_eq_true']
      exact ⟨Or.inr, fun h => h.resolve_left Bool.false_ne_true⟩

/-! ## The listing order -/

theorem sortsBefore_of_isNan (h : b.isNan = true) : a.sortsBefore b = true := by
  have hnone : b.position? = none := by
    have hsome := position?_isSome b
    rw [h] at hsome
    simpa using hsome
  unfold sortsBefore
  rw [hnone]

/-- Before a number that stands somewhere only such numbers are listed, and
only those that are at most it. -/
theorem le_of_sortsBefore (hb : b.isNan = false) (h : a.sortsBefore b = true) :
    a.le b = true := by
  obtain ⟨q, hq⟩ := exists_position? hb
  unfold sortsBefore at h
  rw [hq] at h
  cases ha : a.position? with
  | none => rw [ha] at h; cases h
  | some p =>
      rw [ha] at h
      exact le_iff.mpr ⟨p, q, ha, hq, h⟩

/-! ## Whole numbers -/

theorem unitsPerOne_pos : 0 < unitsPerOne := by
  rw [unitsPerOne_eq]
  exact Nat.two_pow_pos _

theorem le_int (m n : Int) : (int m).le (int n) = decide (m ≤ n) := by
  have hone : (0 : Int) < unitsPerOne := Int.ofNat_lt.mpr unitsPerOne_pos
  show decide (m * unitsPerOne ≤ n * unitsPerOne) = decide (m ≤ n)
  exact decide_eq_decide.mpr (Int.mul_le_mul_right hone)

theorem eq_of_same_int {m n : Int} (h : (int m).same (int n) = true) : m = n := by
  have hmn := le_of_same h
  have hnm := le_of_same (same_symm h)
  rw [le_int] at hmn hnm
  exact Int.le_antisymm (of_decide_eq_true hmn) (of_decide_eq_true hnm)

/-- Whole numbers have one form. -/
theorem eq_of_same {a b : Number} (ha : a.isInt = true) (hb : b.isInt = true)
    (h : a.same b = true) : a = b := by
  cases a with
  | float x => cases ha
  | int m =>
      cases b with
      | float x => cases hb
      | int n => rw [eq_of_same_int h]

end Number
end LoadReport
