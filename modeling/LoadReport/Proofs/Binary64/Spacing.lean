import LoadReport.Proofs.Binary64.Monotone

/-!
# How far apart magnitudes are

Two different magnitudes of at most 53 bits are apart by at least one part in
2^53 of the larger one (`HasMantissa.le_mul_sub`). On the grid of the finer of
the two they are at least one step apart, and the smaller one is less than 2^53
steps.

So a quotient that is near enough to a magnitude is rounded to it. Half of that
distance is near enough, and `roundQuotient_eq_of_near` asks for a little less,
which leaves no tie to look at. Zero is half a unit away from everything that is
not rounded to it (`roundQuotient_eq_zero`).
-/

namespace LoadReport

/-- A number that exceeds fewer than `k` steps is at most `k` times the excess. -/
theorem le_mul_sub_of_lt {a b k : Nat} (h : a < b) (hk : a < k) : b ≤ k * (b - a) := by
  obtain ⟨j, rfl⟩ := Nat.exists_eq_add_of_lt h
  have hj : j ≤ k * j := Nat.le_mul_of_pos_left j (by omega)
  have hexcess : a + j + 1 - a = j + 1 := by omega
  rw [hexcess, Nat.mul_succ]
  omega

theorem HasMantissa.le_mul_sub {m n : Nat} (hm : HasMantissa m) (hn : HasMantissa n)
    (h : m < n) : n ≤ 2 ^ significantBits * (n - m) := by
  obtain ⟨a, s, ha, rfl⟩ := hm
  obtain ⟨b, t, hb, rfl⟩ := hn
  rcases Nat.le_total t s with hle | hle
  · obtain ⟨d, rfl⟩ := Nat.exists_eq_add_of_le hle
    rw [Nat.pow_add, Nat.mul_left_comm, Nat.mul_comm (2 ^ t)] at h ⊢
    have hsteps := Nat.lt_of_mul_lt_mul_right h
    rw [← Nat.sub_mul, ← Nat.mul_assoc]
    exact Nat.mul_le_mul_right _ (le_mul_sub_of_lt hsteps (Nat.lt_trans hsteps hb))
  · obtain ⟨d, rfl⟩ := Nat.exists_eq_add_of_le hle
    rw [Nat.pow_add, Nat.mul_left_comm, Nat.mul_comm (2 ^ s)] at h ⊢
    have hsteps := Nat.lt_of_mul_lt_mul_right h
    rw [← Nat.sub_mul, ← Nat.mul_assoc]
    exact Nat.mul_le_mul_right _ (le_mul_sub_of_lt hsteps ha)

/-- A quotient that is near enough to a magnitude is rounded to it. -/
theorem roundQuotient_eq_of_near {num den n : Nat} (hden : 0 < den) (hn : HasMantissa n)
    (hnear : 2 ^ significantBits * (2 * distance num den n) < n * den) :
    roundQuotient num den = n := by
  have hround := (distance_roundQuotient_le num hden hn).1
  have hmantissa := roundQuotient_hasMantissa num den
  -- another magnitude would be too far from `n` for both to be near the quotient
  have hfar : ∀ {gap : Nat}, n ≤ 2 ^ significantBits * gap →
      ¬ gap * den ≤ 2 * distance num den n := by
    intro gap hgap hle
    refine Nat.not_le_of_lt hnear ?_
    calc n * den ≤ 2 ^ significantBits * gap * den := Nat.mul_le_mul_right _ hgap
      _ = 2 ^ significantBits * (gap * den) := Nat.mul_assoc _ _ _
      _ ≤ 2 ^ significantBits * (2 * distance num den n) := Nat.mul_le_mul_left _ hle
  rcases Nat.lt_trichotomy (roundQuotient num den) n with hlt | heq | hgt
  · refine absurd ?_ (hfar (hmantissa.le_mul_sub hn hlt))
    rw [Nat.sub_mul]
    unfold distance at hround ⊢
    omega
  · exact heq
  · refine absurd ?_ (hfar (Nat.le_trans (Nat.le_of_lt hgt) (hn.le_mul_sub hmantissa hgt)))
    rw [Nat.sub_mul]
    unfold distance at hround ⊢
    omega

/-- What is less than half a unit is rounded to none. -/
theorem roundQuotient_eq_zero {num den : Nat} (h : 2 * num < den) : roundQuotient num den = 0 := by
  have hden : 0 < den := Nat.lt_of_le_of_lt (Nat.zero_le _) h
  have hround := (distance_roundQuotient_le num hden (k := 0) ⟨0, 0, by decide, by decide⟩).1
  unfold distance at hround
  have hsmall : roundQuotient num den * den < 1 * den := by omega
  exact Nat.lt_one_iff.mp (Nat.lt_of_mul_lt_mul_right hsmall)

end LoadReport
