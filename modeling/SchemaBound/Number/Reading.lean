import SchemaBound.Number.Basic

/-! Numbers read from text: the literals of JSON, and the looser forms that coercion accepts. -/
namespace SchemaBound.Number

/-- ASCII digits only. -/
def isDigit (c : Char) : Bool := '0' ≤ c && c ≤ '9'

def digitValue (c : Char) : Nat := c.toNat - '0'.toNat

def digitsValue (digits : List Char) : Nat := digits.foldl (fun n c => 10 * n + digitValue c) 0

/-- Appends digits to a significand as long as it stays below `2 ^ 64`; the digits left over come
back. -/
def absorb : Nat → List Char → Nat × List Char
  | n, [] => (n, [])
  | n, c :: rest =>
    let next := 10 * n + digitValue c
    if next < Nat.pow 2 64 then absorb next rest else (n, c :: rest)

/-- The parts of a JSON number literal. -/
structure Literal where
  negative : Bool
  whole : List Char
  fraction : Option (List Char)
  exponent : Option Int
deriving DecidableEq

/-- An optional sign in front, and whether it is a minus. -/
def takeSign : List Char → Bool × List Char
  | '-' :: rest => (true, rest)
  | '+' :: rest => (false, rest)
  | text => (false, text)

/-- One or more digits with an optional sign, to the end of the text. -/
def signedDigits? (text : List Char) : Option Int :=
  let (negative, digits) := takeSign text
  if digits ≠ [] ∧ digits.all isDigit then
    some (if negative then -(digitsValue digits : Int) else digitsValue digits)
  else none

/-- An exponent part `e…`, or nothing at the end of the text. -/
def exponentPart? : List Char → Option (Option Int)
  | [] => some none
  | c :: rest => if c = 'e' ∨ c = 'E' then (signedDigits? rest).map some else none

/-- Splits a literal by the grammar of JSON: no leading zeros, digits on both sides of a point. -/
def Literal.parse? (text : List Char) : Option Literal :=
  let (negative, text) := match text with
    | '-' :: rest => (true, rest)
    | _ => (false, text)
  let whole := text.takeWhile isDigit
  let rest := text.dropWhile isDigit
  if whole = [] ∨ (whole.length > 1 ∧ whole.head? = some '0') then none
  else match rest with
    | '.' :: rest =>
      let fraction := rest.takeWhile isDigit
      if fraction = [] then none
      else (exponentPart? (rest.dropWhile isDigit)).map (⟨negative, whole, some fraction, ·⟩)
    | _ => (exponentPart? rest).map (⟨negative, whole, none, ·⟩)

/-- The double nearest to `10 ^ k`, for the `k` up to 308 where one exists. -/
def powerOfTen (k : Nat) : Binary64 := (Binary64.ofDecimal false 1 k).getD (Binary64.zero false)

/-- `x · 10 ^ power` with a rounding for each factor: a literal is read as its leading 64 bits times
a power of ten, and powers below `10 ^ -308` take several divisions. Nothing when it overflows. -/
def scaled : Nat → Binary64 → Int → Option Binary64
  | 0, _, _ => some (Binary64.zero false)
  | steps + 1, x, power =>
    if x.significand = 0 then some x
    else if power > 308 then none
    else if power ≥ 0 then x.mul (powerOfTen power.toNat)
    else if power ≥ -308 then x.div (powerOfTen (-power).toNat)
    else (x.div (powerOfTen 308)).bind (scaled steps · (power + 308))

/-- The double a literal with this significand and power of ten stands for. Five divisions by
`10 ^ 308` take every 64-bit significand to zero. -/
def floatOfParts (negative : Bool) (significand : Nat) (power : Int) : Option Binary64 :=
  ((Binary64.ofInt significand).bind (scaled 5 · power)).map ({ · with negative := negative })

/-- The number of a literal. Without fraction and exponent it is an integer where 64 bits allow, but
minus zero is a double. -/
def Literal.toNumber? (l : Literal) : Option Number :=
  let (significand, dropped) := absorb 0 l.whole
  if l.fraction = none ∧ l.exponent = none ∧ dropped = [] then
    if ¬ l.negative then some (.int significand)
    else if significand = 0 ∨ significand > Nat.pow 2 63 then (floatOfParts true significand 0).map .float
    else some (.int (-significand))
  else
    let fraction := l.fraction.getD []
    let (significand, ignored) := absorb significand fraction
    let power : Int := dropped.length - (fraction.length - ignored.length : Nat) + l.exponent.getD 0
    (floatOfParts l.negative significand power).map .float

def ofLiteral? (text : List Char) : Option Number :=
  (Literal.parse? text).bind Literal.toNumber?

/-- Reads a decimal integer with an optional sign; it has to fit 64 bits, signed or unsigned. -/
def ofInteger? (text : List Char) : Option Number :=
  (signedDigits? text).bind fun n => if minInt ≤ n ∧ n ≤ maxInt then some (.int n) else none

/-- The parts of a decimal: an optional sign, digits on at least one side of a point, and an optional
exponent. -/
def decimalParts? (text : List Char) : Option (Bool × List Char × List Char × Int) := do
  let (negative, text) := takeSign text
  let whole := text.takeWhile isDigit
  let (fraction, rest) := match text.dropWhile isDigit with
    | '.' :: rest => (rest.takeWhile isDigit, rest.dropWhile isDigit)
    | rest => ([], rest)
  if whole = [] ∧ fraction = [] then none
  else return (negative, whole, fraction, (← exponentPart? rest).getD 0)

/-- Reads a decimal as the nearest double. Results beyond the finite range are refused. -/
def ofDecimal? (text : List Char) : Option Number := do
  let (negative, whole, fraction, exponent) ← decimalParts? text
  let x ← Binary64.ofDecimal negative (digitsValue (whole ++ fraction)) (exponent - fraction.length)
  return .float x

end SchemaBound.Number
