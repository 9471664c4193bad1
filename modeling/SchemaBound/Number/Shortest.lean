import SchemaBound.Number.Binary64

/-! The fewest decimal digits that read back to a double. -/
namespace SchemaBound.Binary64

/-- The number `digits · 10 ^ power`. -/
structure Decimal where
  digits : Nat
  power : Int
deriving DecidableEq

/-- Which of two equally close decimals is taken. -/
inductive Tie where
  | toEven
  | up
deriving DecidableEq

/-- Numerators of the lower end, the value and the upper end of the reals that round to `x`, over one
denominator. Just above a power of two the gap below is half the gap above. -/
def roundingRange (x : Binary64) : Nat × Nat × Nat × Nat :=
  let unit := Nat.pow 2 (x.exponent - 2).toNat
  let below := if x.significand = Nat.pow 2 52 ∧ x.exponent > minExponent then 1 else 2
  ((4 * x.significand - below) * unit, 4 * x.significand * unit, (4 * x.significand + 2) * unit,
    Nat.pow 2 (2 - x.exponent).toNat)

/-- The decimal `c · 10 ^ power` rounds to `x`. The ends count exactly when the significand is even. -/
def readsBack (x : Binary64) (c : Nat) (power : Int) : Bool :=
  let (lo, _, hi, den) := x.roundingRange
  let scaled := c * Nat.pow 10 power.toNat * den
  let grid := Nat.pow 10 (-power).toNat
  if x.significand % 2 = 0 then lo * grid ≤ scaled && scaled ≤ hi * grid
  else lo * grid < scaled && scaled < hi * grid

/-- The least `k` with `x < 10 ^ k`, for `x` other than zero. -/
def decimalScale (x : Binary64) : Int :=
  let (num, den) := x.magnitude
  ((Nat.toDigits 10 (num * Nat.pow 10 340 / den)).length : Int) - 340

/-- The closest decimal on the grid `10 ^ power` that reads back, if its neighbours there do. -/
def closestOnGrid (tie : Tie) (x : Binary64) (power : Int) : Option Nat :=
  let (num, den) := x.magnitude
  let top := num * Nat.pow 10 (-power).toNat
  let bottom := den * Nat.pow 10 power.toNat
  let c := top / bottom
  match x.readsBack c power, x.readsBack (c + 1) power with
  | false, false => none
  | true, false => some c
  | false, true => some (c + 1)
  | true, true =>
    match compare (2 * (top % bottom)) bottom with
    | .lt => some c
    | .gt => some (c + 1)
    | .eq => if tie = .toEven ∧ c % 2 = 0 then some c else some (c + 1)

/-- Tries the grids of 1, 2, … digits in turn. -/
def searchGrids (tie : Tie) (x : Binary64) (scale : Int) : List Nat → Option Decimal
  | [] => none
  | n :: rest =>
    match closestOnGrid tie x (scale - n) with
    | some c => some ⟨c, scale - n⟩
    | none => searchGrids tie x scale rest

/-- Moves trailing zeros of the digits into the power, at most `fuel` of them. -/
def stripZeros : Nat → Decimal → Decimal
  | 0, d => d
  | fuel + 1, d =>
    if d.digits % 10 = 0 ∧ d.digits ≠ 0 then stripZeros fuel ⟨d.digits / 10, d.power + 1⟩ else d

/-- The shortest decimal that reads back to `|x|`, the closest of those. Seventeen digits always
suffice; the exact value stands behind the search. -/
def shortest (tie : Tie) (x : Binary64) : Decimal :=
  if x.significand = 0 then ⟨0, 0⟩
  else
    let digits := x.significand * Nat.pow 2 x.exponent.toNat * Nat.pow 5 (-x.exponent).toNat
    let exact : Decimal := ⟨digits, min x.exponent 0⟩
    stripZeros 400 ((searchGrids tie x x.decimalScale (List.range' 1 17)).getD exact)

private def zeros (n : Nat) : List Char := List.replicate n '0'

/-- Digits with a point after the first `whole` of them, zeros filled in on either side. A whole
number ends in `ifWhole`. -/
def positional (digits : List Char) (whole : Int) (ifWhole : List Char) : List Char :=
  if whole ≤ 0 then ['0', '.'] ++ zeros (-whole).toNat ++ digits
  else if digits.length ≤ whole then digits ++ zeros (whole.toNat - digits.length) ++ ifWhole
  else digits.take whole.toNat ++ ['.'] ++ digits.drop whole.toNat

/-- One digit, the others after a point, and the exponent of the first with its sign. -/
def scientific (digits : List Char) (leading : Int) : List Char :=
  let fraction := if digits.length ≤ 1 then [] else '.' :: digits.drop 1
  let sign := if leading < 0 then '-' else '+'
  digits.take 1 ++ fraction ++ ['e', sign] ++ Nat.toDigits 10 leading.natAbs

/-- The text after the sign of the double. -/
private def signed (x : Binary64) (text : List Char) : String :=
  String.ofList (if x.negative then '-' :: text else text)

/-- JSON text of a double: positional for leading exponents from -5 to 15 and then always with a
fraction, scientific otherwise. Zero keeps its sign. -/
def toText (x : Binary64) : String :=
  let d := shortest .toEven x
  let digits := Nat.toDigits 10 d.digits
  let leading : Int := d.power + digits.length - 1
  x.signed (if -5 ≤ leading ∧ leading ≤ 15 then positional digits (leading + 1) ['.', '0']
    else scientific digits leading)

/-- The value written out without an exponent, and without a fraction when it is whole. -/
def toPlainText (x : Binary64) : String :=
  let d := shortest .up x
  let digits := Nat.toDigits 10 d.digits
  x.signed (positional digits (d.power + digits.length) [])

end SchemaBound.Binary64
