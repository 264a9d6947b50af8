import LoadReport.Decimal.Basic
import LoadReport.Decimal.Layout

/-!
# What is laid out reads back

A number is laid out in one of six ways, and a numeral is read by what it is made
up of. `Parts` is where the two meet: digits, then a tail that begins with none,
from which a fraction and an exponent are read.

- **Each layout has such parts**, and their value is that of the digits and the
  place of the point (`spells_write`). The zeros that fill up to the point may
  come out in the coefficient, with as many powers of ten less in the exponent.
- **Parts determine what is read** (`Parts.read?_eq`), and that it is not a whole
  number: the tail is never empty (`Parts.readNat?_eq_none`).
- **A sign goes in front**, and is the only one that is split off, because a
  numeral without a sign begins with a digit (`Parts.splitSign_eq`).
-/

namespace LoadReport
namespace Decimal

/-! ## Digits -/

/-- Nothing but digits. -/
def AllDigits (text : List Char) : Prop :=
  ∀ c ∈ text, c.isDigit = true

theorem AllDigits.append {l m : List Char} (hl : AllDigits l) (hm : AllDigits m) :
    AllDigits (l ++ m) := by
  intro c hc
  rcases List.mem_append.mp hc with h | h
  · exact hl c h
  · exact hm c h

theorem allDigits_replicate (n : Nat) : AllDigits (List.replicate n '0') := by
  intro c hc
  rw [List.eq_of_mem_replicate hc]
  rfl

theorem allDigits_toDigits (n : Nat) : AllDigits (Nat.toDigits 10 n) :=
  fun _ hc => Nat.isDigit_of_mem_toDigits (by decide) (by decide) hc

theorem AllDigits.takeWhile_eq {digits : List Char} (h : AllDigits digits) :
    digits.takeWhile Char.isDigit = digits ∧ digits.dropWhile Char.isDigit = [] := by
  rw [← List.append_nil digits, List.takeWhile_append_of_pos h, List.dropWhile_append_of_pos h]
  exact ⟨rfl, rfl⟩

theorem AllDigits.takeWhile_append {digits : List Char} (h : AllDigits digits) {mark : Char}
    (hmark : mark.isDigit = false) (rest : List Char) :
    (digits ++ mark :: rest).takeWhile Char.isDigit = digits
      ∧ (digits ++ mark :: rest).dropWhile Char.isDigit = mark :: rest := by
  rw [List.takeWhile_append_of_pos h, List.dropWhile_append_of_pos h,
    List.takeWhile_cons_of_neg (by rw [hmark]; decide), List.append_nil,
    List.dropWhile_cons_of_neg (by rw [hmark]; decide)]
  exact ⟨rfl, rfl⟩

/-- Zeros in front do not count. -/
theorem ofDigitChars_replicate_append (n : Nat) (digits : List Char) :
    Nat.ofDigitChars 10 (List.replicate n '0' ++ digits) 0 = Nat.ofDigitChars 10 digits 0 := by
  rw [Nat.ofDigitChars_append, Nat.ofDigitChars_replicate_zero, Nat.mul_zero]

/-- Zeros behind are powers of ten. -/
theorem ofDigitChars_append_replicate (n : Nat) (digits : List Char) :
    Nat.ofDigitChars 10 (digits ++ List.replicate n '0') 0
      = Nat.ofDigitChars 10 digits 0 * 10 ^ n := by
  rw [Nat.ofDigitChars_append, Nat.ofDigitChars_replicate_zero, Nat.mul_comm]

/-- In front of digits there is no sign. -/
theorem AllDigits.splitSign_append {digits : List Char} (h : AllDigits digits) (hne : digits ≠ [])
    (rest : List Char) : splitSign (digits ++ rest) = (false, digits ++ rest) := by
  obtain ⟨c, digits, rfl⟩ := List.exists_cons_of_ne_nil hne
  have hc := h c (List.mem_cons_self ..)
  rw [List.cons_append]
  unfold splitSign
  split
  · next heq =>
      obtain ⟨rfl, -⟩ := List.cons.inj heq
      exact absurd hc (by decide)
  · next heq =>
      obtain ⟨rfl, -⟩ := List.cons.inj heq
      exact absurd hc (by decide)
  · rfl

theorem readNat?_of_allDigits {digits : List Char} (hne : digits ≠ []) (h : AllDigits digits) :
    readNat? digits = some (Nat.ofDigitChars 10 digits 0) := by
  unfold readNat?
  rw [if_neg]
  rw [List.all_eq_true.mpr h, Bool.not_true, Bool.or_false, List.isEmpty_iff]
  exact hne

theorem readNat?_padZeros (width n : Nat) :
    readNat? (padZeros width (Nat.toDigits 10 n)) = some n := by
  unfold padZeros
  rw [readNat?_of_allDigits (List.append_ne_nil_of_right_ne_nil _ Nat.toDigits_ne_nil)
      ((allDigits_replicate _).append (allDigits_toDigits n)),
    ofDigitChars_replicate_append, Nat.ofDigitChars_ten_toDigits]

theorem readExponent?_writeExponent (layout : Layout) (e : Int) :
    readExponent? (writeExponent layout e) = some e := by
  have hread := readNat?_padZeros layout.exponentDigits e.natAbs
  unfold writeExponent readExponent?
  by_cases hneg : e < 0
  · have hvalue : -(e.natAbs : Int) = e := by omega
    simp only [hneg, if_true, true_or, splitSign, hread]
    exact congrArg some hvalue
  · have hvalue : (e.natAbs : Int) = e := by omega
    simp only [hneg, if_true, if_false, true_or, splitSign, hread]
    exact congrArg some hvalue

/-! ## The parts of a numeral -/

/-- What a numeral without a sign is made up of: digits, and a tail that begins
with none and that the fraction and the exponent are read from. -/
structure Parts (text whole fraction : List Char) (e : Int) : Prop where
  whole_ne_nil : whole ≠ []
  whole_digits : AllDigits whole
  exists_tail : ∃ mark rest tail, text = whole ++ mark :: rest ∧ mark.isDigit = false
    ∧ splitFraction (mark :: rest) = (fraction, tail) ∧ readExponent? tail = some e

namespace Parts

variable {text whole fraction : List Char} {e : Int}

theorem splitSign_eq (h : Parts text whole fraction e) (negative : Bool) :
    splitSign ((if negative then ['-'] else []) ++ text) = (negative, text) := by
  cases negative with
  | true => rfl
  | false =>
      obtain ⟨hne, hdigits, mark, rest, tail, rfl, -, -, -⟩ := h
      exact hdigits.splitSign_append hne (mark :: rest)

theorem read?_eq (h : Parts text whole fraction e) (negative : Bool) :
    read? ((if negative then ['-'] else []) ++ text)
      = some { negative
               coefficient := Nat.ofDigitChars 10 (whole ++ fraction) 0
               exponent := e - fraction.length } := by
  have hsign := h.splitSign_eq negative
  obtain ⟨hne, hdigits, mark, rest, tail, rfl, hmark, hfraction, hexponent⟩ := h
  obtain ⟨htake, hdrop⟩ := hdigits.takeWhile_append hmark rest
  have hsome : (whole.isEmpty && fraction.isEmpty) = false := by
    rw [List.isEmpty_eq_false_iff.mpr hne, Bool.false_and]
  unfold read?
  simp only [hsign, htake, hdrop, hfraction, hsome, hexponent, Bool.false_eq_true, if_false,
    Option.map_some]

/-- A word that is no numeral is another text. -/
theorem ne_of_read? (h : Parts text whole fraction e) {word : List Char}
    (hword : read? word = none) : text ≠ word := by
  rintro rfl
  cases hword.symm.trans (h.read?_eq false)

theorem readNat?_eq_none (h : Parts text whole fraction e) : readNat? text = none := by
  obtain ⟨-, -, mark, rest, tail, rfl, hmark, -, -⟩ := h
  unfold readNat?
  rw [if_pos]
  rw [Bool.or_eq_true, Bool.not_eq_true', List.all_eq_false]
  exact Or.inr ⟨mark, by simp, by rw [hmark]; decide⟩

end Parts

/-! ## Layouts -/

/-- A text that is made up as a numeral for `0.digits · 10 ^ point`. -/
def Spells (text digits : List Char) (point : Int) : Prop :=
  ∃ whole fraction e zeros, Parts text whole fraction e
    ∧ Nat.ofDigitChars 10 (whole ++ fraction) 0 = Nat.ofDigitChars 10 digits 0 * 10 ^ zeros
    ∧ e - (fraction.length : Int) = point - digits.length - (zeros : Nat)

variable {digits : List Char}

theorem splitFraction_point (rest : List Char) : splitFraction ('.' :: rest)
    = (rest.takeWhile Char.isDigit, rest.dropWhile Char.isDigit) := rfl

theorem AllDigits.splitFraction_eq (h : AllDigits digits) :
    splitFraction ('.' :: digits) = (digits, []) := by
  rw [splitFraction_point, h.takeWhile_eq.1, h.takeWhile_eq.2]

theorem spells_writeOut (hne : digits ≠ []) (h : AllDigits digits) (point : Int) :
    Spells (writeOut digits point) digits point := by
  have hzero : AllDigits ['0'] := allDigits_replicate 1
  unfold writeOut
  split
  · next k =>
      -- zeros between the point and the digits
      have hfraction := (allDigits_replicate (k + 1)).append h
      refine ⟨['0'], List.replicate (k + 1) '0' ++ digits, 0, 0,
        ⟨by decide, hzero, '.', _, [], rfl, rfl, hfraction.splitFraction_eq, rfl⟩, ?_, ?_⟩
      · rw [Nat.pow_zero, Nat.mul_one]
        exact ofDigitChars_replicate_append (k + 2) digits
      · rw [List.length_append, List.length_replicate]
        omega
  · refine ⟨['0'], digits, 0, 0,
      ⟨by decide, hzero, '.', _, [], rfl, rfl, h.splitFraction_eq, rfl⟩, ?_, ?_⟩
    · rw [Nat.pow_zero, Nat.mul_one]
      exact ofDigitChars_replicate_append 1 digits
    · rw [Int.ofNat_eq_natCast]
      omega
  · next p hpos =>
      split
      · next hle =>
          -- zeros between the digits and the point, and one behind it
          have hwhole := h.append (allDigits_replicate (p - digits.length))
          refine ⟨digits ++ List.replicate (p - digits.length) '0', ['0'], 0,
            p - digits.length + 1,
            ⟨List.append_ne_nil_of_left_ne_nil hne _, hwhole, '.', _, [], rfl, rfl,
              hzero.splitFraction_eq, rfl⟩, ?_, ?_⟩
          · rw [List.append_assoc, ← ofDigitChars_append_replicate, List.replicate_succ']
          · rw [List.length_singleton, Int.ofNat_eq_natCast]
            omega
      · next hlt =>
          have hfraction : AllDigits (digits.drop p) := fun c hc => h c (List.mem_of_mem_drop hc)
          have hwhole : digits.take p ≠ [] := by
            rw [Ne, List.take_eq_nil_iff]
            exact fun hnil => hnil.elim hpos hne
          refine ⟨digits.take p, digits.drop p, 0, 0,
            ⟨hwhole, fun c hc => h c (List.mem_of_mem_take hc), '.', _, [], rfl, rfl,
              hfraction.splitFraction_eq, rfl⟩, ?_, ?_⟩
          · rw [List.take_append_drop, Nat.pow_zero, Nat.mul_one]
          · rw [List.length_drop, Int.ofNat_eq_natCast]
            omega

theorem spells_writeScientific (layout : Layout) (hne : digits ≠ []) (h : AllDigits digits)
    (e : Int) : Spells (writeScientific layout digits e) digits (e + 1) := by
  have hexponent := readExponent?_writeExponent layout e
  obtain ⟨rest, hrest⟩ : ∃ rest, writeExponent layout e = 'e' :: rest := ⟨_, rfl⟩
  unfold writeScientific
  rw [hrest] at hexponent ⊢
  split
  · exact absurd rfl hne
  · next d =>
      refine ⟨[d], [], e, 0, ⟨by simp, h, 'e', rest, _, rfl, rfl, rfl, hexponent⟩, ?_, ?_⟩
      · rw [List.append_nil, Nat.pow_zero, Nat.mul_one]
      · simp
  · next d fraction _ =>
      have hfraction : AllDigits fraction := fun c hc => h c (List.mem_cons_of_mem _ hc)
      obtain ⟨htake, hdrop⟩ := hfraction.takeWhile_append (by decide : 'e'.isDigit = false) rest
      refine ⟨[d], fraction, e, 0, ⟨by simp, ?_, '.', _, 'e' :: rest, rfl, rfl, ?_, hexponent⟩,
        ?_, ?_⟩
      · exact fun c hc => h c (List.mem_singleton.mp hc ▸ List.mem_cons_self ..)
      · exact (splitFraction_point _).trans (Prod.ext htake hdrop)
      · rw [Nat.pow_zero, Nat.mul_one]
        rfl
      · rw [List.length_cons]
        omega

/-- **Every layout is a numeral for what it lays out.** -/
theorem spells_write (layout : Layout) (hne : digits ≠ []) (h : AllDigits digits) (point : Int) :
    Spells (layout.write digits point) digits point := by
  unfold Layout.write
  dsimp only
  split
  · exact spells_writeOut hne h point
  · have hscientific := spells_writeScientific layout hne h (point - 1)
    rwa [Int.sub_add_cancel] at hscientific

end Decimal
end LoadReport
