/-! Finite double-precision numbers as exact dyadic rationals, rounded to nearest with ties to even. -/
namespace SchemaBound

/-- The number `± significand · 2 ^ exponent`. The values built here have a significand below
`2 ^ 53` that is at least `2 ^ 52` unless the exponent is the least one, `-1074`. -/
structure Binary64 where
  negative : Bool
  significand : Nat
  exponent : Int
deriving DecidableEq, Inhabited

namespace Binary64

/-- The least exponent, that of the subnormal numbers. -/
def minExponent : Int := -1074

/-- The greatest exponent of a finite number. -/
def maxExponent : Int := 971

/-- Zero keeps its sign. -/
def zero (negative : Bool) : Binary64 := ⟨negative, 0, minExponent⟩

/-- Canonical values have one representation each. -/
def Canonical (x : Binary64) : Prop :=
  x.significand < Nat.pow 2 53 ∧ minExponent ≤ x.exponent ∧ x.exponent ≤ maxExponent ∧
    (Nat.pow 2 52 ≤ x.significand ∨ x.exponent = minExponent)

/-- The fraction `num · 2 ^ (-e) / den`, with the power moved to the side where it is whole. -/
def scaleDown (num den : Nat) (e : Int) : Nat × Nat :=
  (num * Nat.pow 2 (-e).toNat, den * Nat.pow 2 e.toNat)

/-- The nearest natural number to `num / den`, ties to even. -/
def roundHalfEven (num den : Nat) : Nat :=
  let q := num / den
  match compare (2 * (num % den)) den with
  | .lt => q
  | .gt => q + 1
  | .eq => if q % 2 = 0 then q else q + 1

/-- The exponent at which `num / den` has a 53-bit whole part, but never below the least one. -/
def fittingExponent (num den : Nat) : Int :=
  let estimate : Int := (num.log2 : Int) - den.log2 - 52
  let scaled := scaleDown num den estimate
  let exact := if scaled.1 / scaled.2 < Nat.pow 2 52 then estimate - 1 else estimate
  max exact minExponent

/-- The double nearest to `± num / den`; nothing when it lies beyond the finite range. -/
def ofRatio (negative : Bool) (num den : Nat) : Option Binary64 :=
  if num = 0 then some (zero negative)
  else
    let e := fittingExponent num den
    let scaled := scaleDown num den e
    let m := roundHalfEven scaled.1 scaled.2
    let carried := m = Nat.pow 2 53
    let significand := if carried then Nat.pow 2 52 else m
    let exponent := if carried then e + 1 else e
    if exponent > maxExponent then none else some ⟨negative, significand, exponent⟩

/-- The double nearest to `± digits · 10 ^ power`. Powers that leave the finite range on either side
are settled from the number of digits, without forming them. -/
def ofDecimal (negative : Bool) (digits : Nat) (power : Int) : Option Binary64 :=
  if digits = 0 then some (zero negative)
  else
    let magnitude : Int := (Nat.toDigits 10 digits).length + power
    if magnitude > 310 then none
    else if magnitude < -330 then some (zero negative)
    else ofRatio negative (digits * Nat.pow 10 power.toNat) (Nat.pow 10 (-power).toNat)

/-- Numerator and denominator of the absolute value. -/
def magnitude (x : Binary64) : Nat × Nat := scaleDown x.significand 1 (-x.exponent)

def toRatio (x : Binary64) : Int × Nat :=
  let (num, den) := x.magnitude
  (if x.negative then -(num : Int) else num, den)

/-- The double nearest to an integer. -/
def ofInt (n : Int) : Option Binary64 := ofRatio (n < 0) n.natAbs 1

/-- The rounded product. -/
def mul (x y : Binary64) : Option Binary64 :=
  let (a, b) := x.magnitude
  let (c, d) := y.magnitude
  ofRatio (x.negative != y.negative) (a * c) (b * d)

/-- The rounded quotient by a number other than zero. -/
def div (x y : Binary64) : Option Binary64 :=
  let (a, b) := x.magnitude
  let (c, d) := y.magnitude
  ofRatio (x.negative != y.negative) (a * d) (b * c)

/-- The rounded distance between two numbers. -/
def distance (x y : Binary64) : Option Binary64 :=
  let (a, b) := x.toRatio
  let (c, d) := y.toRatio
  ofRatio false (a * d - c * b).natAbs (b * d)

/-- Whole numbers have no fraction. -/
def isWhole (x : Binary64) : Bool :=
  let (num, den) := x.magnitude
  num % den = 0

/-- Exact order of the values; the two zeros are equal. -/
def cmp (x y : Binary64) : Ordering :=
  let (a, b) := x.toRatio
  let (c, d) := y.toRatio
  compare (a * d) (c * b)

end Binary64
end SchemaBound
