import SchemaBound.Text.CaseFolding
import SchemaBound.Text.Property

/-! Sets of characters that a regular expression can ask for. -/
namespace SchemaBound

/-- A set of characters. -/
inductive CharSet where
  | none
  | range (low high : Char)
  | property (p : Text.Property)
  /-- Characters of words. -/
  | word
  | complement (s : CharSet)
  | union (s t : CharSet)
  | intersection (s t : CharSet)
  | difference (s t : CharSet)
  /-- Characters in one of two sets, not in both. -/
  | symmetric (s t : CharSet)
  /-- Characters that differ from one in the set in case at most. -/
  | folded (s : CharSet)
deriving DecidableEq

namespace CharSet

def holds : CharSet → Char → Bool
  | .none, _ => false
  | .range low high, c => low ≤ c && c ≤ high
  | .property p, c => p.holds c
  | .word, c => Text.isWordPart c
  | .complement s, c => !s.holds c
  | .union s t, c => s.holds c || t.holds c
  | .intersection s t, c => s.holds c && t.holds c
  | .difference s t, c => s.holds c && !t.holds c
  | .symmetric s t, c => s.holds c != t.holds c
  | .folded s, c => (Text.caseVariants c).any s.holds

def single (c : Char) : CharSet := .range c c

def ofChars (list : List Char) : CharSet := list.foldr (fun c s => .union (single c) s) .none

/-- All characters but the line feed. -/
def inLine : CharSet := .complement (single '\n')

def decimal : CharSet := .property (.category .decimalNumber)

def blank : CharSet := .property .blank

def negatedIf (negated : Bool) (s : CharSet) : CharSet := if negated then .complement s else s

/-- The set, with the characters that differ in case alone if so wished. -/
def foldedIf (fold : Bool) (s : CharSet) : CharSet := if fold then .folded s else s

/-- About how many bytes an automaton takes to test for a character of the set. -/
def cost : CharSet → Nat
  | .none => 32
  | .range low high => if high.toNat < 128 then 32 else if low = high then 96 else 256
  | .property .any => 256
  | .property _ => 12000
  | .word => 24000
  | .complement s => s.cost + 192
  | .union s t => if s.cost = 32 ∧ t.cost = 32 then 32 else s.cost + t.cost
  | .intersection s t => min s.cost t.cost
  | .difference s t => s.cost + t.cost
  | .symmetric s t => s.cost + t.cost
  | .folded s => s.cost

end CharSet
end SchemaBound
