import SchemaBound.Pattern.CharSet

/-! Regular expressions as trees. -/
namespace SchemaBound

/-- A condition on a place between characters. -/
inductive Anchor where
  | textStart
  | textEnd
  | lineStart
  | lineEnd
  | wordBoundary
  | noWordBoundary
  | wordStart
  | wordEnd
deriving DecidableEq

/-- A character at this place belongs to a word. -/
def Anchor.inWord (text : Array Char) (i : Nat) : Bool := (text[i]?.map Text.isWordPart).getD false

/-- The place in front of the character `i` meets the condition. -/
def Anchor.holds (text : Array Char) (i : Nat) (a : Anchor) : Bool :=
  let before := i != 0 && inWord text (i - 1)
  let after := inWord text i
  match a with
  | .textStart => i = 0
  | .textEnd => i = text.size
  | .lineStart => i = 0 || text[i - 1]? = some '\n'
  | .lineEnd => i = text.size || text[i]? = some '\n'
  | .wordBoundary => before != after
  | .noWordBoundary => before = after
  | .wordStart => !before && after
  | .wordEnd => before && !after

/-- A regular expression. -/
inductive Pattern where
  | empty
  | char (set : CharSet)
  | seq (first second : Pattern)
  | alt (left right : Pattern)
  /-- At least and at most so many rounds; more of them first, or fewer. -/
  | loop (body : Pattern) (least : Nat) (most : Option Nat) (greedy : Bool)
  | anchor (a : Anchor)
  /-- A group whose text can be asked for again. -/
  | capture (index : Nat) (body : Pattern)
  /-- The text of a group once more. -/
  | again (index : Nat)
  /-- What follows the place, or does not. -/
  | ahead (negated : Bool) (body : Pattern)
  /-- What precedes the place in so many characters, or does not. -/
  | behind (negated : Bool) (length : Nat) (body : Pattern)
  /-- The first way to match, and no other. -/
  | atomic (body : Pattern)

namespace Pattern

/-- The places where its parts can end decide the expression: no part depends on which way to match came first
or on what a group has matched. -/
def isPlain : Pattern → Bool
  | .empty | .char _ | .anchor _ => true
  | .seq p q | .alt p q => p.isPlain && q.isPlain
  | .loop p _ _ _ | .capture _ p | .ahead _ p | .behind _ _ p => p.isPlain
  | .again _ | .atomic _ => false

/-- Some part of the expression looks for the edge of a word. -/
def looksForWords : Pattern → Bool
  | .anchor a => a = .wordBoundary || a = .noWordBoundary || a = .wordStart || a = .wordEnd
  | .seq p q | .alt p q => p.looksForWords || q.looksForWords
  | .loop p _ _ _ | .capture _ p | .ahead _ p | .behind _ _ p | .atomic p => p.looksForWords
  | .empty | .char _ | .again _ => false

/-- The expression with the numbers of its groups raised. -/
def raiseGroups (offset : Nat) : Pattern → Pattern
  | .seq p q => .seq (p.raiseGroups offset) (q.raiseGroups offset)
  | .alt p q => .alt (p.raiseGroups offset) (q.raiseGroups offset)
  | .loop p least most greedy => .loop (p.raiseGroups offset) least most greedy
  | .capture index p => .capture (index + offset) (p.raiseGroups offset)
  | .again index => .again (index + offset)
  | .ahead negated p => .ahead negated (p.raiseGroups offset)
  | .behind negated length p => .behind negated length (p.raiseGroups offset)
  | .atomic p => .atomic (p.raiseGroups offset)
  | p => p

/-- About how many bytes an automaton for the expression takes. -/
def cost : Pattern → Nat
  | .empty | .anchor _ => 32
  | .char set => set.cost
  | .seq p q => p.cost + q.cost
  | .alt p q => p.cost + q.cost + 72
  | .loop p least most _ =>
    match most with
    | some most => p.cost * least + (p.cost + 48) * (most - least) + 32
    | none => p.cost * max least 1 + 64
  | .capture _ p => p.cost + 64
  | .again _ => 32
  | .ahead _ p | .behind _ _ p | .atomic p => p.cost

end Pattern
end SchemaBound
