import LoadReport.Number.Text
import LoadReport.Proofs.Decimal.Layout
import LoadReport.Proofs.Decimal.Shortest

/-!
# Numbers and their written form

A number reads back from its written form, in its kind and with its sign
(`Number.read?_write`), so different numbers have different texts
(`Number.text_injective`). The kinds do not get into each other's way: whole
numbers are digits alone, and a binary64 number always shows a point, an exponent
or a word.

For a finite binary64 number the rest is put together from what it is written
with. The digits are those of the shortest numeral without the zeros behind, and
the point stays where it is (`exists_writeMagnitude`); a layout of them is a
numeral of the same value (`Decimal.spells_write`); and the value is all that
reading looks at.

Which digits are written is settled by reading alone: no numeral that is read as
the number has fewer of them, and none that has as many is nearer to the number
(`Binary64.ShortestDigits`).
-/

namespace LoadReport

open Decimal

namespace Binary64

/-! ## Zeros behind -/

theorem exists_stripZeros_append (digits : List Char) :
    ∃ zeros, digits = stripZeros digits ++ List.replicate zeros '0' := by
  have hzeros : ∀ c ∈ digits.reverse.takeWhile (· = '0'), c = '0' := by
    intro c hc
    have hall : (digits.reverse.takeWhile (· = '0')).all (· = '0') = true := List.all_takeWhile
    exact of_decide_eq_true (List.all_eq_true.mp hall c hc)
  refine ⟨(digits.reverse.takeWhile (· = '0')).length, ?_⟩
  calc digits
      = (digits.reverse.takeWhile (· = '0') ++ digits.reverse.dropWhile (· = '0')).reverse := by
        rw [List.takeWhile_append_dropWhile, List.reverse_reverse]
    _ = stripZeros digits ++ (digits.reverse.takeWhile (· = '0')).reverse := List.reverse_append
    _ = _ := by rw [List.eq_replicate_of_mem hzeros, List.reverse_replicate, List.length_replicate]

theorem stripZeros_append_replicate (digits : List Char) (n : Nat) :
    stripZeros (digits ++ List.replicate n '0') = stripZeros digits := by
  unfold stripZeros
  rw [List.reverse_append, List.reverse_replicate, List.dropWhile_append_of_pos]
  intro c hc
  exact decide_eq_true (List.eq_of_mem_replicate hc)

theorem allDigits_stripZeros {digits : List Char} (h : AllDigits digits) :
    AllDigits (stripZeros digits) := by
  intro c hc
  obtain ⟨zeros, hdigits⟩ := exists_stripZeros_append digits
  exact h c (hdigits ▸ List.mem_append_left _ hc)

theorem length_stripZeros_le (digits : List Char) : (stripZeros digits).length ≤ digits.length := by
  obtain ⟨zeros, hdigits⟩ := exists_stripZeros_append digits
  have hlength := congrArg List.length hdigits
  rw [List.length_append] at hlength
  omega

theorem toDigits_mul_pow {n : Nat} (hn : 0 < n) (k : Nat) :
    Nat.toDigits 10 (n * 10 ^ k) = Nat.toDigits 10 n ++ List.replicate k '0' := by
  induction k with
  | zero => simp
  | succ k ih =>
      have hpos : 0 < n * 10 ^ k := Nat.mul_pos hn (Nat.pow_pos (by decide))
      have hstep := Nat.toDigits_append_toDigits (b := 10) (d := 0) (by decide) hpos (by decide)
      rw [Nat.toDigits_zero, ih, Nat.add_zero, List.append_assoc, ← List.replicate_succ',
        Nat.mul_left_comm, ← Nat.pow_succ'] at hstep
      exact hstep.symm

/-- What is left are the significant digits. -/
theorem length_stripZeros_le_of_hasDigits {n count : Nat} (hn : 0 < n) (h : HasDigits count n) :
    (stripZeros (Nat.toDigits 10 n)).length ≤ count := by
  obtain ⟨kept, zeros, hkept, rfl⟩ := h
  have hpos := Nat.pos_of_mul_pos_right hn
  have hcount : 0 < count := by
    refine Nat.pos_of_ne_zero ?_
    rintro rfl
    rw [Nat.pow_zero] at hkept
    omega
  rw [toDigits_mul_pow hpos, stripZeros_append_replicate]
  exact Nat.le_trans (length_stripZeros_le _) ((digitCount_le_iff hcount).mpr hkept)

/-! ## The digits that are written -/

/-- The numeral `±0.digits · 10 ^ point`. -/
def ofDigits (negative : Bool) (digits : List Char) (point : Int) : Decimal :=
  { negative
    coefficient := Nat.ofDigitChars 10 digits 0
    exponent := point - digits.length }

/-- Digits and the place of their point that are read as a number, with its sign
in front, while no numeral that is read as the number has fewer digits, and none
of those with as many is nearer to it. -/
structure ShortestDigits (x : Binary64) (negative : Bool) (digits : List Char) (point : Int) :
    Prop where
  ne_nil : digits ≠ []
  allDigits : AllDigits digits
  toBinary64_eq : (ofDigits negative digits point).toBinary64 = x
  length_le : ∀ d : Decimal, d.toBinary64 = x → ∀ count, 0 < count →
    HasDigits count d.coefficient → digits.length ≤ count
  nearest : ∀ d : Decimal, d.toBinary64 = x → HasDigits digits.length d.coefficient →
    |(ofDigits negative digits point).toRat - x.toRat| ≤ |d.toRat - x.toRat|

/-- The zeros behind the digits of a coefficient may be dropped if the point stays
where it is. -/
theorem exists_coefficient_eq (coefficient : Nat) (exponent : Int) :
    ∃ zeros : Nat,
      Nat.ofDigitChars 10 (stripZeros (Nat.toDigits 10 coefficient)) 0 * 10 ^ zeros = coefficient
        ∧ ((Nat.toDigits 10 coefficient).length : Int) + exponent
          - (stripZeros (Nat.toDigits 10 coefficient)).length = exponent + zeros := by
  obtain ⟨zeros, hzeros⟩ := exists_stripZeros_append (Nat.toDigits 10 coefficient)
  refine ⟨zeros, ?_, ?_⟩
  · rw [← ofDigitChars_append_replicate, ← hzeros, Nat.ofDigitChars_ten_toDigits]
  · have hlength := congrArg List.length hzeros
    rw [List.length_append, List.length_replicate] at hlength
    omega

theorem shortestDigits_zero (negative : Bool) (h : Representable 0) :
    ShortestDigits (finite negative 0 h) negative ['0'] 1 := by
  refine ⟨by decide, allDigits_replicate 1, ?_, fun _ _ _ hcount _ => hcount, fun d _ _ => ?_⟩
  · exact toBinary64_of_roundToUnits h (roundToUnits_zero _)
  · have hzero : Nat.ofDigitChars 10 ['0'] 0 = 0 := rfl
    rw [ofDigits, abs_toRat_sub, hzero, offset_zero]
    exact abs_nonneg _

theorem shortestDigits_of_isShortest (negative : Bool) {units count coefficient : Nat}
    {exponent : Int} (h : Representable units) (hpos : 0 < units)
    (hround : roundToUnits coefficient exponent = units)
    (hshortest : IsShortest units count coefficient exponent) :
    ShortestDigits (finite negative units h) negative (stripZeros (Nat.toDigits 10 coefficient))
      ((Nat.toDigits 10 coefficient).length + exponent) := by
  obtain ⟨zeros, hvalue, hplace⟩ := exists_coefficient_eq coefficient exponent
  have hcoefficient : 0 < coefficient := by
    refine Nat.pos_of_ne_zero fun hnil => Nat.ne_of_gt hpos ?_
    rw [← hround, hnil, roundToUnits_zero]
  have hlength := length_stripZeros_le_of_hasDigits hcoefficient hshortest.hasDigits
  refine ⟨?_, ?_, ?_, ?_, ?_⟩
  · intro hnil
    rw [hnil, Nat.ofDigitChars_nil, Nat.zero_mul] at hvalue
    omega
  · exact allDigits_stripZeros (allDigits_toDigits coefficient)
  · rw [ofDigits, hplace, ← toBinary64_mul_pow, hvalue]
    exact toBinary64_of_roundToUnits h hround
  · intro d hread k hk hdigits
    exact Nat.le_trans hlength
      (hshortest.fewest (roundToUnits_of_toBinary64 hread).2 hdigits)
  · rintro ⟨sign, c, e⟩ hread hdigits
    obtain ⟨rfl, hunits⟩ := roundToUnits_of_toBinary64 hread
    rw [ofDigits, hplace, abs_toRat_sub, abs_toRat_sub, ← offset_mul_pow, hvalue]
    exact hshortest.nearest hunits (hdigits.mono hlength)

theorem exists_writeMagnitude (negative : Bool) {units : Nat} (h : Representable units) :
    ∃ digits point, writeMagnitude units = layout.write digits point
      ∧ ShortestDigits (finite negative units h) negative digits point := by
  unfold writeMagnitude
  split
  · next hzero =>
      subst hzero
      exact ⟨_, _, rfl, shortestDigits_zero negative h⟩
  · next hne =>
      have hpos := Nat.pos_of_ne_zero hne
      have hround := roundToUnits_shortest h.2
      obtain ⟨count, hshortest⟩ := exists_isShortest h.2 hpos
      generalize shortest units = found at hround hshortest ⊢
      obtain ⟨coefficient, exponent⟩ := found
      exact ⟨_, _, rfl, shortestDigits_of_isShortest negative h hpos hround hshortest⟩

theorem exists_parts_writeMagnitude (negative : Bool) {units : Nat} (h : Representable units) :
    ∃ whole fraction e, Parts (writeMagnitude units) whole fraction e
      ∧ toBinary64 ⟨negative, Nat.ofDigitChars 10 (whole ++ fraction) 0, e - fraction.length⟩
        = finite negative units h := by
  obtain ⟨digits, point, hwrite, hshortest⟩ := exists_writeMagnitude negative h
  obtain ⟨whole, fraction, e, zeros, hparts, hcoefficient, hexponent⟩ :=
    spells_write layout hshortest.ne_nil hshortest.allDigits point
  refine ⟨whole, fraction, e, hwrite ▸ hparts, ?_⟩
  rw [hcoefficient, hexponent, toBinary64_mul_pow, Int.sub_add_cancel]
  exact hshortest.toBinary64_eq

/-! ## Reading -/

/-- **A binary64 number reads back from its written form**, the sign of a zero
included. -/
theorem read?_write (x : Binary64) : read? x.write = some x := by
  match x with
  | nan => rfl
  | infinite true => rfl
  | infinite false => rfl
  | finite negative units h =>
      obtain ⟨whole, fraction, e, hparts, hvalue⟩ := exists_parts_writeMagnitude negative h
      have hnan : writeMagnitude units ≠ ['n', 'a', 'n'] := hparts.ne_of_read? rfl
      have hinf : writeMagnitude units ≠ ['i', 'n', 'f'] := hparts.ne_of_read? rfl
      simp only [write, read?, hparts.splitSign_eq, hnan, hinf, if_false, hparts.read?_eq,
        Option.map_some, hvalue]

/-- **A finite number is written in the shortest digits** that are read as it. -/
theorem exists_write_eq {x : Binary64} (hx : x.isFinite = true) :
    ∃ negative digits point,
      x.write = (if negative then ['-'] else []) ++ layout.write digits point
        ∧ ShortestDigits x negative digits point := by
  cases x with
  | nan => cases hx
  | infinite negative => cases hx
  | finite negative units h =>
      obtain ⟨digits, point, hwrite, hshortest⟩ := exists_writeMagnitude negative h
      exact ⟨negative, digits, point, by rw [write, hwrite], hshortest⟩

end Binary64

namespace Number

theorem readInt?_of_splitSign {text : List Char} (h : splitSign text = (false, text)) :
    readInt? text = (readNat? text).map fun n => (n : Int) := by
  unfold readInt?
  split
  · next digits =>
      have hsign : splitSign ('-' :: digits) = (true, digits) := rfl
      rw [hsign] at h
      cases h
  · rfl

theorem readInt?_writeInt (n : Int) : readInt? (writeInt n) = some n := by
  have hread := readNat?_toDigits n.natAbs
  unfold writeInt
  split
  · next hneg =>
      have hvalue : -(n.natAbs : Int) = n := by omega
      simp only [List.singleton_append, readInt?, hread]
      exact congrArg some hvalue
  · next hnonneg =>
      have hvalue : (n.natAbs : Int) = n := by omega
      have hsign := (allDigits_toDigits n.natAbs).splitSign_append Nat.toDigits_ne_nil []
      rw [List.append_nil] at hsign
      rw [List.nil_append, readInt?_of_splitSign hsign, hread]
      exact congrArg some hvalue

/-- No written form of a binary64 number is taken for a whole number. -/
theorem readInt?_write (x : Binary64) : readInt? x.write = none := by
  match x with
  | .nan => rfl
  | .infinite true => rfl
  | .infinite false => rfl
  | .finite negative units h =>
      obtain ⟨whole, fraction, e, hparts, -⟩ := Binary64.exists_parts_writeMagnitude negative h
      have hnat := hparts.readNat?_eq_none
      cases negative with
      | true =>
          simp only [Binary64.write, if_true, List.singleton_append, readInt?, hnat]
          rfl
      | false =>
          rw [Binary64.write, readInt?_of_splitSign (hparts.splitSign_eq false)]
          simp only [Bool.false_eq_true, if_false, List.nil_append, hnat]
          rfl

/-- **A number reads back from its written form**, in its kind. -/
theorem read?_write (a : Number) : read? a.write = some a := by
  unfold read?
  cases a with
  | int n => rw [write, readInt?_writeInt]
  | float x =>
      rw [write, readInt?_write]
      dsimp only
      rw [Binary64.read?_write, Option.map_some]

theorem read?_text (a : Number) : read? a.text.toList = some a := by
  rw [text, String.toList_ofList, read?_write]

theorem text_injective : Function.Injective text := by
  intro a b h
  have hread := congrArg (fun t : String => read? t.toList) h
  simp only [read?_text] at hread
  exact Option.some.inj hread

end Number
end LoadReport
