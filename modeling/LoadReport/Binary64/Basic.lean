import LoadReport.Position
import LoadReport.Rounding

/-!
# Binary64 numbers

A finite binary64 number is a sign and a magnitude, and every magnitude is
a whole number of **units** of 2^-1074, the smallest positive one. So the
exact value of a number is an integer, sums and comparisons of exact values
are integer arithmetic, and rounding is the only place where anything is
lost.

Which whole numbers of units occur is a proof field of the type
(`Representable`): at most 53 significant bits, and below 2^1024 in value.
The only way to make a number out of arbitrary units is `ofUnits`, which
turns magnitudes from 2^1024 on into infinities.

There is one NaN. Zero has two signs, which are different as data and equal
in value.
-/

namespace LoadReport

/-- A unit is one half to this power. -/
def unitExponent : Nat := 1074

/-- How many units make one. -/
@[irreducible] def unitsPerOne : Nat := 2 ^ unitExponent

/-- Finite magnitudes are below this power of two, in units. -/
def limitExponent : Nat := 2098

/-- The first magnitude, in units, that is too large to be finite. -/
@[irreducible] def unitsLimit : Nat := 2 ^ limitExponent

theorem unitsPerOne_eq : unitsPerOne = 2 ^ unitExponent := by
  unfold unitsPerOne
  rfl

theorem unitsLimit_eq : unitsLimit = 2 ^ limitExponent := by
  unfold unitsLimit
  rfl

/-- A number of units that some finite binary64 number has. -/
def Representable (units : Nat) : Prop :=
  units < unitsLimit ∧ HasMantissa units

/-- Powers of two below the limit are representable. -/
theorem representable_two_pow {k : Nat} (hk : k < limitExponent) : Representable (2 ^ k) :=
  ⟨by rw [unitsLimit_eq]; exact Nat.pow_lt_pow_right (by decide) hk, 1, k, by decide, by simp⟩

theorem unitsLimit_pos : 0 < unitsLimit :=
  Nat.lt_of_le_of_lt (Nat.zero_le _) (representable_two_pow (k := 0) (by decide)).1

theorem representable_zero : Representable 0 :=
  ⟨unitsLimit_pos, 0, 0, by decide, by simp⟩

/-- A binary64 number; finite magnitudes are counted in units of 2^-1074. -/
inductive Binary64
  | nan
  | infinite (negative : Bool)
  | finite (negative : Bool) (units : Nat) (representable : Representable units)
deriving DecidableEq

namespace Binary64

/-- A signed number of units, infinite from the limit on. -/
def ofUnits (negative : Bool) (units : Nat) (h : HasMantissa units) : Binary64 :=
  if lt : units < unitsLimit then finite negative units ⟨lt, h⟩ else infinite negative

/-- The number nearest to `±num / den` units; a half goes to the even
neighbour, and magnitudes from the limit on become infinite. -/
def ofUnitQuotient (negative : Bool) (num den : Nat) : Binary64 :=
  ofUnits negative (roundQuotient num den) (roundQuotient_hasMantissa num den)

/-- The number nearest to `±num / den`. -/
def ofRatio (negative : Bool) (num den : Nat) : Binary64 :=
  ofUnitQuotient negative (num * unitsPerOne) den

/-- The number nearest to a signed number of units. An exact zero takes the
sign that is passed for it. -/
def ofSignedUnits (zeroSign : Bool) (n : Int) : Binary64 :=
  ofUnitQuotient (if n = 0 then zeroSign else decide (n < 0)) n.natAbs 1

/-- The number nearest to a whole number. -/
def ofInt (n : Int) : Binary64 :=
  ofRatio (decide (n < 0)) n.natAbs 1

def zero (negative : Bool) : Binary64 :=
  finite negative 0 representable_zero

def half : Binary64 :=
  finite false (2 ^ (unitExponent - 1)) (representable_two_pow (by decide))

/-! ## Views -/

/-- Neither infinite nor NaN. -/
def isFinite : Binary64 → Bool
  | finite .. => true
  | _ => false

def isNan : Binary64 → Bool
  | nan => true
  | _ => false

/-- The exact value of a finite number in units. -/
def units? : Binary64 → Option Int
  | finite negative units _ => some (if negative then -(units : Int) else units)
  | _ => none

/-- Where the number stands; NaN stands nowhere. -/
def position? : Binary64 → Option Position
  | nan => none
  | infinite true => some .below
  | infinite false => some .above
  | finite negative units _ => some (.units (if negative then -(units : Int) else units))

/-- The whole part toward minus infinity of a finite number. -/
def floor? (x : Binary64) : Option Int :=
  x.units?.map fun n => Int.fdiv n unitsPerOne

/-! ## What the views say of the constructors -/

theorem ofUnits_of_lt {negative : Bool} {units : Nat} (h : HasMantissa units)
    (lt : units < unitsLimit) : ofUnits negative units h = finite negative units ⟨lt, h⟩ := by
  simp [ofUnits, lt]

theorem ofUnits_of_le {negative : Bool} {units : Nat} (h : HasMantissa units)
    (le : unitsLimit ≤ units) : ofUnits negative units h = infinite negative := by
  simp [ofUnits, Nat.not_lt.mpr le]

theorem position?_isSome (x : Binary64) : x.position?.isSome = !x.isNan := by
  match x with
  | nan => rfl
  | infinite true => rfl
  | infinite false => rfl
  | finite .. => rfl

theorem units?_isSome (x : Binary64) : x.units?.isSome = x.isFinite := by
  cases x <;> rfl

end Binary64
end LoadReport
