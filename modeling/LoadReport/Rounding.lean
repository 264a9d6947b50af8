import LoadReport.Instances

/-!
# Rounding to whole numbers and to 53 significant bits

Everything is done on natural numbers, so nothing is lost before the one
place where rounding happens.

- `divNearest` rounds a quotient to a whole number, a half to the even
  neighbour.
- `roundQuotient` rounds a quotient to 53 significant bits: it picks the
  power of two below which bits are dropped from the size of the quotient
  and calls `divNearest` on that grid. Quotients under 2^53 are rounded to
  whole numbers, so the unit is also the finest step.
- `roundRoot` does the same for a square root, comparing squares instead of
  computing the root.

The statement that the rest of the library relies on is `HasMantissa`: a
result of rounding is a mantissa of at most 53 bits times a power of two.
-/

namespace LoadReport

/-- The number of significant bits that rounding keeps. -/
def significantBits : Nat := 53

/-- A natural number with at most 53 significant bits. -/
def HasMantissa (n : Nat) : Prop :=
  ∃ mantissa shift, mantissa < 2 ^ significantBits ∧ n = mantissa * 2 ^ shift

/-! ## Rounding a quotient -/

/-- The whole number nearest to `num / den`; a half goes to the even
neighbour. -/
def divNearest (num den : Nat) : Nat :=
  let whole := num / den
  let twice := 2 * (num % den)
  if twice < den ∨ (twice = den ∧ whole % 2 = 0) then whole else whole + 1

theorem divNearest_of_dvd {num den : Nat} (hden : 0 < den) (h : den ∣ num) :
    divNearest num den = num / den := by
  simp [divNearest, Nat.mod_eq_zero_of_dvd h, hden]

theorem le_divNearest (num den : Nat) : num / den ≤ divNearest num den := by
  unfold divNearest
  dsimp only
  split <;> omega

theorem divNearest_le (num den : Nat) : divNearest num den ≤ num / den + 1 := by
  unfold divNearest
  dsimp only
  split <;> omega

/-- The lowest bit that is kept when `n` is cut to 53 significant bits. -/
def lowestKeptBit (n : Nat) : Nat := n.log2 - (significantBits - 1)

/-- The number with 53 significant bits nearest to `num / den`, on a grid
no finer than the whole numbers; a half goes to the even neighbour. -/
def roundQuotient (num den : Nat) : Nat :=
  let shift := lowestKeptBit (num / den)
  divNearest num (den * 2 ^ shift) * 2 ^ shift

/-- Cutting at the lowest kept bit leaves at most 53 bits. -/
theorem div_lowestKeptBit_lt (n : Nat) : n / 2 ^ lowestKeptBit n < 2 ^ significantBits := by
  rw [Nat.div_lt_iff_lt_mul (Nat.two_pow_pos _), ← Nat.pow_add]
  refine Nat.lt_of_lt_of_le Nat.lt_log2_self (Nat.pow_le_pow_right (by decide) ?_)
  simp only [lowestKeptBit, significantBits]
  omega

/-- Rounding up may carry into a 54th bit, but only to 2^53 exactly. -/
theorem hasMantissa_mul_of_le {m shift : Nat} (h : m ≤ 2 ^ significantBits) :
    HasMantissa (m * 2 ^ shift) := by
  by_cases hm : m < 2 ^ significantBits
  · exact ⟨m, shift, hm, rfl⟩
  · have heq : m = 2 ^ significantBits := by omega
    refine ⟨1, significantBits + shift, by decide, ?_⟩
    rw [heq, Nat.pow_add, Nat.one_mul]

theorem roundQuotient_hasMantissa (num den : Nat) : HasMantissa (roundQuotient num den) := by
  unfold roundQuotient
  apply hasMantissa_mul_of_le
  have hle := divNearest_le num (den * 2 ^ lowestKeptBit (num / den))
  have hlt := div_lowestKeptBit_lt (num / den)
  rw [Nat.div_div_eq_div_mul] at hlt
  omega

/-! ## Rounding a square root -/

/-- The whole part of the square root, two binary digits at a time. -/
def floorRoot (n : Nat) : Nat :=
  if h : n = 0 then 0
  else
    let doubled := 2 * floorRoot (n / 4)
    if (doubled + 1) * (doubled + 1) ≤ n then doubled + 1 else doubled
termination_by n
decreasing_by omega

theorem floorRoot_spec (n : Nat) :
    floorRoot n * floorRoot n ≤ n ∧ n < (floorRoot n + 1) * (floorRoot n + 1) := by
  induction n using Nat.strongRecOn with
  | ind n ih =>
    rw [floorRoot]
    split
    · simp_all
    · rename_i hn
      obtain ⟨hlo, hhi⟩ := ih (n / 4) (by omega)
      generalize floorRoot (n / 4) = r at hlo hhi
      have e1 : 2 * r * (2 * r) = 4 * (r * r) := by
        rw [Nat.mul_mul_mul_comm]
      have e2 : (2 * r + 1 + 1) * (2 * r + 1 + 1) = 4 * ((r + 1) * (r + 1)) := by
        rw [show 2 * r + 1 + 1 = 2 * (r + 1) by omega, Nat.mul_mul_mul_comm]
      dsimp only
      split
      · omega
      · omega

/-- The number with 53 significant bits nearest to the square root of `n`;
a half goes to the even neighbour. The midpoint of two neighbours is
compared by its square, so no digit of the root beyond the kept ones is
needed. -/
def roundRoot (n : Nat) : Nat :=
  let root := floorRoot n
  let shift := lowestKeptBit root
  let kept := root / 2 ^ shift
  let midpoint := (2 * kept + 1) * 2 ^ shift
  let square := midpoint * midpoint
  if 4 * n < square ∨ (4 * n = square ∧ kept % 2 = 0) then kept * 2 ^ shift
  else (kept + 1) * 2 ^ shift

theorem roundRoot_hasMantissa (n : Nat) : HasMantissa (roundRoot n) := by
  unfold roundRoot
  have hlt := div_lowestKeptBit_lt (floorRoot n)
  dsimp only
  split
  · exact hasMantissa_mul_of_le (Nat.le_of_lt hlt)
  · exact hasMantissa_mul_of_le hlt

end LoadReport
