import SchemaBound.Text.Hex
import SchemaBound.Text.Pieces

/-! Sets of code points as ranges, and how tables of them are written. -/
namespace SchemaBound.Text

/-- The last of the indices from `low` up to `high` at which an ascending function is at most `n`, or `low`.
Each of at most `fuel` steps halves the interval. -/
def lastAtMost (start : Nat → Nat) (n : Nat) : Nat → Nat → Nat → Nat
  | 0, low, _ => low
  | fuel + 1, low, high =>
    if high ≤ low + 1 then low
    else
      let middle := (low + high) / 2
      if start middle ≤ n then lastAtMost start n fuel middle high else lastAtMost start n fuel low middle

/-- First and last code points of ranges, ascending and apart. -/
abbrev Ranges := Array (Nat × Nat)

namespace Ranges

/-- A code point, or two with a hyphen between them, in hexadecimal. -/
def range? (token : List Char) : Option (Nat × Nat) :=
  match cut? '-' token with
  | some (first, last) =>
    match hexNumber? first, hexNumber? last with
    | some a, some b => some (a, b)
    | _, _ => none
  | none => (hexNumber? token).map fun a => (a, a)

def ofLines (lines : List String) : Ranges :=
  (lines.flatMap fun line => (pieces ' ' line.toList).filterMap range?).toArray

/-- A code point lies in one of the ranges. -/
def contains (ranges : Ranges) (n : Nat) : Bool :=
  let start (i : Nat) : Nat := (ranges[i]?.map (·.1)).getD 0
  match ranges[lastAtMost start n ranges.size 0 ranges.size]? with
  | some (first, last) => first ≤ n && n ≤ last
  | none => false

end Ranges
end SchemaBound.Text
