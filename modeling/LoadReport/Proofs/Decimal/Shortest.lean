import LoadReport.Proofs.Decimal.Value

/-!
# The shortest numeral is the shortest

The search for the shortest numeral looks at two neighbours for each count of
digits, stops at the first count at which one of them reads back, and takes the
nearer of two that do. That this is a numeral with the fewest digits of all that
read back, and a nearest one of those (`exists_isShortest`), takes four facts.

- **Two neighbours are enough** (`exists_isCandidate_of_hasDigits`). What has few
  digits does not lie strictly between two neighbours of as many digits
  (`le_or_succ_le`). The neighbour on its side is not farther from the number,
  and as rounding is monotone it reads back too.
- **Seventeen digits are enough** (`exists_isCandidate_maxDigits`). The nearer of
  the two neighbours is off by at most half a step, which is less than what
  rounding makes up for, because 2^53 is less than 10^16.
- **A neighbour has no more digits than its grid** (`hasDigits_of_isCandidate`),
  not even the upper one of a row of nines.
- **The rest of a division tells which neighbour is nearer**
  (`isCandidate_of_pick?`).

That the numeral reads back is what the search tests (`roundToUnits_shortest`).
-/

namespace LoadReport
namespace Decimal

/-! ## Significant digits -/

/-- A natural number with at most so many digits in front of its zeros. -/
def HasDigits (count n : Nat) : Prop :=
  ∃ kept zeros, kept < 10 ^ count ∧ n = kept * 10 ^ zeros

theorem HasDigits.mono {count count' n : Nat} (h : HasDigits count n) (hle : count ≤ count') :
    HasDigits count' n := by
  obtain ⟨kept, zeros, hkept, rfl⟩ := h
  exact ⟨kept, zeros, Nat.lt_of_lt_of_le hkept (Nat.pow_le_pow_right (by decide) hle), rfl⟩

theorem hasDigits_of_le {count n : Nat} (hcount : 0 < count) (h : n ≤ 10 ^ count) :
    HasDigits count n := by
  rcases Nat.eq_or_lt_of_le h with rfl | hlt
  · exact ⟨1, count, Nat.one_lt_pow (Nat.ne_of_gt hcount) (by decide), (Nat.one_mul _).symm⟩
  · exact ⟨n, 0, hlt, (Nat.mul_one n).symm⟩

/-- What has few digits does not lie strictly between two numbers of as many. -/
theorem le_or_succ_le {kept low count a m : Nat} (hkept : kept < 10 ^ (count + 1))
    (hlow : 10 ^ count ≤ low) :
    kept * 10 ^ a ≤ low * 10 ^ m ∨ (low + 1) * 10 ^ m ≤ kept * 10 ^ a := by
  rcases Nat.lt_or_ge a m with hlt | hge
  · left
    calc kept * 10 ^ a ≤ 10 ^ (count + 1) * 10 ^ a := Nat.mul_le_mul_right _ (Nat.le_of_lt hkept)
      _ = 10 ^ count * 10 ^ (a + 1) := by rw [← Nat.pow_add, ← Nat.pow_add, Nat.add_right_comm]; rfl
      _ ≤ low * 10 ^ m := Nat.mul_le_mul hlow (Nat.pow_le_pow_right (by decide) hlt)
  · obtain ⟨d, rfl⟩ := Nat.exists_eq_add_of_le hge
    rw [Nat.add_comm m, Nat.pow_add, ← Nat.mul_assoc]
    rcases Nat.lt_or_ge low (kept * 10 ^ d) with hlt | hle
    · exact Or.inr (Nat.mul_le_mul_right _ hlt)
    · exact Or.inl (Nat.mul_le_mul_right _ hle)

variable {units : Nat}

/-! ## The steps of an expansion -/

theorem roundToUnits_step (c k : Nat) :
    roundToUnits c ((k : Int) - unitExponent) = roundQuotient (c * 10 ^ k) (5 ^ unitExponent) := by
  rw [roundToUnits_eq rfl, ten_pow_unitExponent]
  exact roundQuotient_mul_right _ _ (by rw [unitsPerOne_eq]; exact Nat.two_pow_pos _)

/-- The exact expansion reads back. -/
theorem roundToUnits_expansion (h : HasMantissa units) :
    roundToUnits (expansion units) (-unitExponent) = units := by
  have hround := roundToUnits_step (expansion units) 0
  rw [Int.natCast_zero, Int.zero_sub, Nat.pow_zero, Nat.mul_one, expansion,
    roundQuotient_mul (Nat.pow_pos (by decide)) h] at hround
  exact hround

/-- Half a step is less than what rounding makes up for, if there are 10^16 of
them. -/
theorem roundToUnits_of_near (h : HasMantissa units) {c k : Nat}
    (hnear : 2 * ((c * 10 ^ k : Nat) - (expansion units : Nat) : Int).natAbs ≤ 10 ^ k)
    (hsize : 10 ^ 16 * 10 ^ k ≤ expansion units) :
    roundToUnits c ((k : Int) - unitExponent) = units := by
  have hdistance : distance (c * 10 ^ k) (5 ^ unitExponent) units
      = ((c * 10 ^ k : Nat) - (expansion units : Nat) : Int).natAbs := by
    rw [distance, ← Int.natAbs_neg, Int.neg_sub]
    rfl
  rw [roundToUnits_step]
  refine roundQuotient_eq_of_near (Nat.pow_pos (by decide)) h ?_
  calc 2 ^ significantBits * (2 * distance (c * 10 ^ k) (5 ^ unitExponent) units)
      ≤ 2 ^ significantBits * 10 ^ k := Nat.mul_le_mul_left _ (hdistance ▸ hnear)
    _ < 10 ^ 16 * 10 ^ k := Nat.mul_lt_mul_of_pos_right (by decide) (Nat.pow_pos (by decide))
    _ ≤ units * 5 ^ unitExponent := hsize

/-! ## Two neighbours -/

section Neighbours

variable {dropped : Nat}

/-- A neighbour on the grid that drops so many digits, if it reads back. -/
structure IsCandidate (units dropped g : Nat) : Prop where
  neighbour : g = (neighbours (expansion units) dropped).low
    ∨ g = (neighbours (expansion units) dropped).low + 1
  reads_back : roundToUnits g ((dropped : Int) - unitExponent) = units

theorem low_le (steps dropped : Nat) : (neighbours steps dropped).low * 10 ^ dropped ≤ steps :=
  Nat.div_mul_le_self _ _

theorem le_high (steps dropped : Nat) :
    steps ≤ ((neighbours steps dropped).low + 1) * 10 ^ dropped :=
  Nat.le_of_lt ((Nat.div_lt_iff_lt_mul (Nat.pow_pos (by decide))).mp (Nat.lt_succ_self _))

theorem roundToUnits_low_le (h : HasMantissa units) (dropped : Nat) :
    roundToUnits (neighbours (expansion units) dropped).low ((dropped : Int) - unitExponent)
      ≤ units := by
  rw [roundToUnits_step]
  exact roundQuotient_le (Nat.pow_pos (by decide)) h (low_le _ _)

theorem le_roundToUnits_high (h : HasMantissa units) (dropped : Nat) :
    units ≤ roundToUnits ((neighbours (expansion units) dropped).low + 1)
      ((dropped : Int) - unitExponent) := by
  rw [roundToUnits_step]
  exact le_roundQuotient (Nat.pow_pos (by decide)) h (le_high _ _)

/-- The neighbour on the side of a numeral does as well as the numeral. -/
theorem exists_isCandidate_of_outside (h : HasMantissa units) {c a k : Nat} {e : Int}
    (he : e = (a : Int) - (unitExponent + k : Nat)) (hround : roundToUnits c e = units)
    (hside : c * 10 ^ a ≤ (neighbours (expansion units) dropped).low * 10 ^ (dropped + k)
      ∨ ((neighbours (expansion units) dropped).low + 1) * 10 ^ (dropped + k) ≤ c * 10 ^ a) :
    ∃ g, IsCandidate units dropped g
      ∧ offset units g ((dropped : Int) - unitExponent) ≤ offset units c e := by
  have hgrid : (dropped : Int) - unitExponent
      = ((dropped + k : Nat) : Int) - (unitExponent + k : Nat) := by omega
  rcases hside with hside | hside
  · have hexact := Nat.mul_le_mul_right (10 ^ k) (low_le (expansion units) dropped)
    rw [Nat.mul_assoc, ← Nat.pow_add] at hexact
    have hnumeral := roundToUnits_le_of_le he hgrid hside
    rw [hround] at hnumeral
    exact ⟨_, ⟨Or.inl rfl, Nat.le_antisymm (roundToUnits_low_le h dropped) hnumeral⟩,
      offset_le_offset hgrid he (natAbs_sub_le (Or.inl ⟨hside, hexact⟩))⟩
  · have hexact := Nat.mul_le_mul_right (10 ^ k) (le_high (expansion units) dropped)
    rw [Nat.mul_assoc, ← Nat.pow_add] at hexact
    have hnumeral := roundToUnits_le_of_le hgrid he hside
    rw [hround] at hnumeral
    exact ⟨_, ⟨Or.inr rfl, Nat.le_antisymm hnumeral (le_roundToUnits_high h dropped)⟩,
      offset_le_offset hgrid he (natAbs_sub_le (Or.inr ⟨hexact, hside⟩))⟩

/-- If no digit is dropped, nothing is lost. -/
theorem isCandidate_expansion (h : HasMantissa units) : IsCandidate units 0 (expansion units) := by
  refine ⟨Or.inl (Nat.div_one _).symm, ?_⟩
  rw [Int.natCast_zero, Int.zero_sub]
  exact roundToUnits_expansion h

theorem Neighbours.twiceRest_le {n : Neighbours} (h : n.lowIsNearer = true) :
    n.twiceRest ≤ n.step := by
  rcases Bool.or_eq_true_iff.mp h with hlt | heven
  · exact Nat.le_of_lt (of_decide_eq_true hlt)
  · exact Nat.le_of_eq (beq_iff_eq.mp (Bool.and_eq_true_iff.mp heven).1)

theorem Neighbours.step_le {n : Neighbours} (h : n.lowIsNearer = false) :
    n.step ≤ n.twiceRest :=
  Nat.le_of_not_lt (of_decide_eq_false (Bool.or_eq_false_iff.mp h).1)

/-- How far the neighbours are from the expansion: the rest of the division, and
what it lacks of a step. -/
theorem natAbs_sub_expansion (units dropped : Nat) :
    (((neighbours (expansion units) dropped).low * 10 ^ dropped : Nat)
        - (expansion units : Nat) : Int).natAbs = expansion units % 10 ^ dropped
      ∧ ((((neighbours (expansion units) dropped).low + 1) * 10 ^ dropped : Nat)
        - (expansion units : Nat) : Int).natAbs + expansion units % 10 ^ dropped
          = 10 ^ dropped := by
  have hsteps := Nat.div_add_mod' (expansion units) (10 ^ dropped)
  have hrest := Nat.mod_lt (expansion units) (Nat.pow_pos (a := 10) (n := dropped) (by decide))
  rw [neighbours, Nat.succ_mul (expansion units / 10 ^ dropped)]
  dsimp only
  generalize expansion units / 10 ^ dropped * 10 ^ dropped = low at hsteps ⊢
  omega

theorem offset_low_le_high
    (hnear : (neighbours (expansion units) dropped).lowIsNearer = true) :
    offset units (neighbours (expansion units) dropped).low ((dropped : Int) - unitExponent)
      ≤ offset units ((neighbours (expansion units) dropped).low + 1)
        ((dropped : Int) - unitExponent) := by
  have hle : 2 * (expansion units % 10 ^ dropped) ≤ 10 ^ dropped :=
    Neighbours.twiceRest_le (n := neighbours (expansion units) dropped) hnear
  obtain ⟨hlow, hhigh⟩ := natAbs_sub_expansion units dropped
  refine offset_le_offset (k := 0) rfl rfl ?_
  rw [Nat.pow_zero, Nat.mul_one, hlow]
  omega

theorem offset_high_le_low
    (hnear : (neighbours (expansion units) dropped).lowIsNearer = false) :
    offset units ((neighbours (expansion units) dropped).low + 1) ((dropped : Int) - unitExponent)
      ≤ offset units (neighbours (expansion units) dropped).low
        ((dropped : Int) - unitExponent) := by
  have hle : 10 ^ dropped ≤ 2 * (expansion units % 10 ^ dropped) :=
    Neighbours.step_le (n := neighbours (expansion units) dropped) hnear
  obtain ⟨hlow, hhigh⟩ := natAbs_sub_expansion units dropped
  refine offset_le_offset (k := 0) rfl rfl ?_
  rw [Nat.pow_zero, Nat.mul_one, hlow]
  omega

/-- What is picked is a candidate, and no candidate is nearer. -/
theorem isCandidate_of_pick? {found : Nat × Int}
    (h : (neighbours (expansion units) dropped).pick? (readsBack units) = some found) :
    found.2 = (dropped : Int) - unitExponent ∧ IsCandidate units dropped found.1
      ∧ ∀ g, IsCandidate units dropped g →
        offset units found.1 ((dropped : Int) - unitExponent)
          ≤ offset units g ((dropped : Int) - unitExponent) := by
  unfold Neighbours.pick? at h
  split at h
  · next hlow hhigh =>
      obtain rfl := Option.some.inj h
      refine ⟨rfl, ?_⟩
      dsimp only
      cases hnear : (neighbours (expansion units) dropped).lowIsNearer with
      | true =>
          refine ⟨⟨Or.inl rfl, beq_iff_eq.mp hlow⟩, ?_⟩
          rintro g ⟨rfl | rfl, -⟩
          · exact le_refl _
          · exact offset_low_le_high hnear
      | false =>
          refine ⟨⟨Or.inr rfl, beq_iff_eq.mp hhigh⟩, ?_⟩
          rintro g ⟨rfl | rfl, -⟩
          · exact offset_high_le_low hnear
          · exact le_refl _
  · next hlow hhigh =>
      obtain rfl := Option.some.inj h
      refine ⟨rfl, ⟨Or.inl rfl, beq_iff_eq.mp hlow⟩, ?_⟩
      rintro g ⟨rfl | rfl, hread⟩
      · exact le_refl _
      · exact absurd hread (beq_eq_false_iff_ne.mp hhigh)
  · next hlow hhigh =>
      obtain rfl := Option.some.inj h
      refine ⟨rfl, ⟨Or.inr rfl, beq_iff_eq.mp hhigh⟩, ?_⟩
      rintro g ⟨rfl | rfl, hread⟩
      · exact absurd hread (beq_eq_false_iff_ne.mp hlow)
      · exact le_refl _
  · cases h

theorem isSome_pick? {g : Nat} (h : IsCandidate units dropped g) :
    ((neighbours (expansion units) dropped).pick? (readsBack units)).isSome = true := by
  unfold Neighbours.pick?
  split
  · rfl
  · rfl
  · rfl
  · next hlow hhigh =>
      obtain ⟨rfl | rfl, hread⟩ := h
      · exact absurd hread (beq_eq_false_iff_ne.mp hlow)
      · exact absurd hread (beq_eq_false_iff_ne.mp hhigh)

end Neighbours

/-! ## One round of the search -/

/-- How many digits of the expansion are dropped to leave so many. -/
def droppedFor (units count : Nat) : Nat := digitCount (expansion units) - count

/-- What the search finds with a given count of digits. -/
def candidate (units count : Nat) : Option (Nat × Int) :=
  (neighbours (expansion units) (droppedFor units count)).pick? (readsBack units)

theorem shortest_eq (units : Nat) : shortest units
    = ((List.range' 1 maxDigits).findSome? (candidate units)).getD
        (expansion units, -unitExponent) := rfl

/-- The lower neighbour has as many digits as are asked for. -/
theorem pow_le_low (hpos : 0 < units) {count : Nat}
    (hsize : count + 1 ≤ digitCount (expansion units)) :
    10 ^ count ≤ (neighbours (expansion units) (droppedFor units (count + 1))).low := by
  have hexpansion : 0 < expansion units := Nat.mul_pos hpos (Nat.pow_pos (by decide))
  unfold neighbours droppedFor
  rw [Nat.le_div_iff_mul_le (Nat.pow_pos (by decide)), ← Nat.pow_add]
  exact pow_le_of_lt_digitCount hexpansion (by omega)

theorem isCandidate_of_digitCount_le (h : HasMantissa units) {count : Nat}
    (hsize : digitCount (expansion units) ≤ count) :
    IsCandidate units (droppedFor units count) (expansion units) := by
  rw [droppedFor, Nat.sub_eq_zero_of_le hsize]
  exact isCandidate_expansion h

/-- **Two neighbours are enough.** -/
theorem exists_isCandidate_of_hasDigits (h : HasMantissa units) (hpos : 0 < units) {c count : Nat}
    {e : Int} (hround : roundToUnits c e = units) (hdigits : HasDigits (count + 1) c) :
    ∃ g, IsCandidate units (droppedFor units (count + 1)) g
      ∧ offset units g ((droppedFor units (count + 1) : Int) - unitExponent)
        ≤ offset units c e := by
  rcases Nat.lt_or_ge (count + 1) (digitCount (expansion units)) with hlt | hle
  · obtain ⟨kept, zeros, hkept, rfl⟩ := hdigits
    rw [roundToUnits_mul_pow] at hround
    rw [offset_mul_pow]
    obtain ⟨a, b, he, hb⟩ := exists_difference (e + zeros) unitExponent
    obtain ⟨k, rfl⟩ := Nat.exists_eq_add_of_le hb
    exact exists_isCandidate_of_outside h he hround
      (le_or_succ_le hkept (pow_le_low hpos (Nat.le_of_lt hlt)))
  · refine ⟨_, isCandidate_of_digitCount_le h hle, ?_⟩
    rw [droppedFor, Nat.sub_eq_zero_of_le hle, Int.natCast_zero, Int.zero_sub, offset_expansion]
    exact abs_nonneg _

/-- **Seventeen digits are enough.** -/
theorem exists_isCandidate_maxDigits (h : HasMantissa units) (hpos : 0 < units) :
    ∃ g, IsCandidate units (droppedFor units maxDigits) g := by
  rcases Nat.lt_or_ge maxDigits (digitCount (expansion units)) with hlt | hle
  · have hlow : 10 ^ 16 ≤ (neighbours (expansion units) (droppedFor units maxDigits)).low :=
      pow_le_low hpos (Nat.le_of_lt hlt)
    generalize droppedFor units maxDigits = dropped at hlow ⊢
    have hsize := Nat.le_trans (Nat.mul_le_mul_right (10 ^ dropped) hlow)
      (low_le (expansion units) dropped)
    obtain ⟨hnear, hfar⟩ := natAbs_sub_expansion units dropped
    rcases Nat.lt_or_ge (10 ^ dropped) (2 * (expansion units % 10 ^ dropped)) with hupper | hlower
    · exact ⟨_, Or.inr rfl, roundToUnits_of_near h (by omega) hsize⟩
    · exact ⟨_, Or.inl rfl, roundToUnits_of_near h (by omega) hsize⟩
  · exact ⟨_, isCandidate_of_digitCount_le h hle⟩

theorem isSome_candidate {count g : Nat} (h : IsCandidate units (droppedFor units count) g) :
    (candidate units count).isSome = true :=
  isSome_pick? h

theorem low_lt_pow (units count : Nat) :
    (neighbours (expansion units) (droppedFor units count)).low < 10 ^ count := by
  unfold neighbours droppedFor
  rw [Nat.div_lt_iff_lt_mul (Nat.pow_pos (by decide)), ← Nat.pow_add]
  exact Nat.lt_of_lt_of_le (lt_pow_digitCount _) (Nat.pow_le_pow_right (by decide) (by omega))

/-- A neighbour has no more digits than its grid. -/
theorem hasDigits_of_isCandidate {count g : Nat} (hcount : 0 < count)
    (h : IsCandidate units (droppedFor units count) g) : HasDigits count g := by
  refine hasDigits_of_le hcount ?_
  have hlow := low_lt_pow units count
  rcases h.neighbour with rfl | rfl
  · exact Nat.le_of_lt hlow
  · exact hlow

/-! ## The search -/

/-- The search stops at the first count of digits that has a candidate. -/
theorem exists_candidate_eq_shortest (h : HasMantissa units) (hpos : 0 < units) :
    ∃ count, 0 < count ∧ candidate units count = some (shortest units)
      ∧ ∀ k, 0 < k → k < count → candidate units k = none := by
  have hsome : ((List.range' 1 maxDigits).findSome? (candidate units)).isSome = true := by
    obtain ⟨g, hg⟩ := exists_isCandidate_maxDigits h hpos
    rw [List.findSome?_isSome_iff]
    exact ⟨maxDigits, List.mem_range'_1.mpr (by decide), isSome_candidate hg⟩
  obtain ⟨found, hfound⟩ := Option.isSome_iff_exists.mp hsome
  have hshortest : shortest units = found := by rw [shortest_eq, hfound, Option.getD_some]
  obtain ⟨before, count, after, hrange, hcandidate, hnone⟩ :=
    List.findSome?_eq_some_iff.mp hfound
  have hmem : count ∈ List.range' 1 maxDigits := by simp [hrange]
  obtain ⟨hlow, hhigh⟩ := List.mem_range'_1.mp hmem
  refine ⟨count, hlow, hshortest ▸ hcandidate, fun k hk hlt => hnone k ?_⟩
  -- the counts are tried in ascending order
  have hk' : k ∈ before ++ count :: after := by
    rw [← hrange]
    exact List.mem_range'_1.mpr (by omega)
  have hsorted : (before ++ count :: after).Pairwise (· < ·) := by
    rw [← hrange]
    exact List.pairwise_lt_range'
  rcases List.mem_append.mp hk' with hbefore | hrest
  · exact hbefore
  · have hle := (List.pairwise_cons.mp (List.pairwise_append.mp hsorted).2.1).1
    rcases List.mem_cons.mp hrest with rfl | hafter
    · exact absurd hlt (Nat.lt_irrefl _)
    · exact absurd hlt (Nat.lt_asymm (hle k hafter))

/-- **The shortest numeral reads back**, that of zero included. -/
theorem roundToUnits_shortest (h : HasMantissa units) :
    roundToUnits (shortest units).1 (shortest units).2 = units := by
  rw [shortest_eq]
  cases hfound : (List.range' 1 maxDigits).findSome? (candidate units) with
  | none =>
      rw [Option.getD_none]
      exact roundToUnits_expansion h
  | some found =>
      obtain ⟨count, -, hcandidate⟩ := List.exists_of_findSome?_eq_some hfound
      exact beq_iff_eq.mp (Neighbours.passes_of_pick? hcandidate)

/-- A numeral of so many digits, where none that reads back has fewer, and none of
those with as many is nearer. -/
structure IsShortest (units count c : Nat) (e : Int) : Prop where
  hasDigits : HasDigits count c
  fewest : ∀ {c' k : Nat} {e' : Int}, roundToUnits c' e' = units → HasDigits k c' → count ≤ k
  nearest : ∀ {c' : Nat} {e' : Int}, roundToUnits c' e' = units → HasDigits count c' →
    offset units c e ≤ offset units c' e'

theorem not_hasDigits_zero {c : Nat} {e : Int} (hpos : 0 < units)
    (hround : roundToUnits c e = units) : ¬ HasDigits 0 c := by
  rintro ⟨kept, zeros, hkept, rfl⟩
  obtain rfl : kept = 0 := Nat.lt_one_iff.mp hkept
  rw [Nat.zero_mul, roundToUnits_zero] at hround
  omega

/-- **The shortest numeral has the fewest digits** of all that read back, **and is
a nearest one** of those with as many. -/
theorem exists_isShortest (h : HasMantissa units) (hpos : 0 < units) :
    ∃ count, IsShortest units count (shortest units).1 (shortest units).2 := by
  obtain ⟨count, hcount, hcandidate, hnone⟩ := exists_candidate_eq_shortest h hpos
  obtain ⟨hexponent, hfound, hbest⟩ := isCandidate_of_pick? hcandidate
  refine ⟨count, hasDigits_of_isCandidate hcount hfound, ?_, ?_⟩
  · intro c' k e' hround hdigits
    refine Nat.le_of_not_lt fun hlt => ?_
    cases k with
    | zero => exact not_hasDigits_zero hpos hround hdigits
    | succ k =>
        obtain ⟨g, hg, -⟩ := exists_isCandidate_of_hasDigits h hpos hround hdigits
        have hsome := isSome_candidate hg
        rw [hnone (k + 1) (Nat.succ_pos _) hlt] at hsome
        cases hsome
  · intro c' e' hround hdigits
    obtain ⟨k, rfl⟩ := Nat.exists_eq_succ_of_ne_zero (Nat.ne_of_gt hcount)
    obtain ⟨g, hg, hle⟩ := exists_isCandidate_of_hasDigits h hpos hround hdigits
    rw [hexponent]
    exact le_trans (hbest g hg) hle

end Decimal
end LoadReport
