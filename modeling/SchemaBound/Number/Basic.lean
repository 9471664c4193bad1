import SchemaBound.Number.Shortest

/-! JSON numbers: integers of at most 64 bits, and doubles for everything else. -/
namespace SchemaBound

/-- An integer and a double of the same value are different numbers: they print differently. -/
inductive Number where
  | int (n : Int)
  | float (x : Binary64)
deriving DecidableEq, Inhabited

namespace Number

/-- The least integer kept as one. -/
def minInt : Int := -0x8000000000000000

/-- The greatest integer kept as one. -/
def maxInt : Int := 0xffffffffffffffff

def toText : Number → String
  | .int n => toString n
  | .float x => x.toText

def toRatio : Number → Int × Nat
  | .int n => (n, 1)
  | .float x => x.toRatio

/-- Exact order of the values across both kinds. -/
def cmp (x y : Number) : Ordering :=
  let (a, b) := x.toRatio
  let (c, d) := y.toRatio
  compare (a * d) (c * b)

/-- Equal values, whatever their kinds. -/
def sameValue (x y : Number) : Bool := x.cmp y = .eq

/-- No fraction. -/
def isWhole : Number → Bool
  | .int _ => true
  | .float x => x.isWhole

/-- The nearest double. -/
def toBinary64 : Number → Binary64
  | .int n => (Binary64.ofInt n).getD (Binary64.zero false)
  | .float x => x

/-- Equal as stored: the same kind and the same value. The two zeros of the doubles are equal. -/
def identical : Number → Number → Bool
  | .int n, .int k => n = k
  | .float x, .float y => x.cmp y = .eq
  | _, _ => false

end Number
end SchemaBound
