import SchemaBound.Pattern.Plain

/-! Regular expressions with looking around, groups that are repeated, and choices that are final. The parts
without those are kept as texts of the plain grammar, which says what they mean. -/
namespace SchemaBound.Pattern

/-- An expression as it is read. -/
inductive Expression where
  | empty
  /-- Any character; the line feed too, or not. -/
  | any (lineFeed : Bool)
  | literal (c : Char) (fold : Bool)
  /-- A text of the plain grammar that asks for one character. -/
  | verbatim (text : List Char) (fold : Bool)
  | anchor (a : Anchor)
  | seq (first second : Expression)
  | alt (left right : Expression)
  | loop (body : Expression) (least : Nat) (most : Option Nat) (greedy : Bool)
  | group (index : Nat) (body : Expression)
  | look (back negated : Bool) (body : Expression)
  | atomic (body : Expression)
  | again (index : Nat)
  /-- Where the match begins for who asks, which is no matter here. -/
  | restart
  /-- The place where the search began. -/
  | searchStart

namespace Expression

/-- Something that can stand several times in a row. -/
def isRepeatable : Expression → Bool
  | .empty | .anchor _ | .look _ _ _ => false
  | _ => true

/-- The plain grammar has no words for some part of the expression. -/
def isHard : Expression → Bool
  | .empty | .any _ | .literal _ _ | .verbatim _ _ => false
  | .anchor a => a = .wordBoundary || a = .noWordBoundary || a = .wordStart || a = .wordEnd
  | .seq e f | .alt e f => e.isHard || f.isHard
  | .loop e _ _ _ | .group _ e => e.isHard
  | .look _ _ _ | .atomic _ | .again _ | .restart | .searchStart => true

/-- The number of characters that the expression takes, if that is the same in every match. -/
def width? : Expression → Option Nat
  | .empty | .anchor _ | .look _ _ _ | .restart | .searchStart => some 0
  | .any _ | .literal _ _ | .verbatim _ _ => some 1
  | .seq e f => do return (← e.width?) + (← f.width?)
  | .alt e f => do
    let n ← e.width?
    if (← f.width?) = n then some n else none
  | .loop e least most _ => do
    let n ← e.width?
    if most = some least then some (n * least) else none
  | .group _ e | .atomic e => e.width?
  | .again _ => none

/-- A character that stands for itself in the plain grammar. -/
def quoted (c : Char) : List Char :=
  let special := ['\\', '.', '+', '*', '?', '(', ')', '|', '[', ']', '\x7b', '\x7d', '^', '$', '#'].contains c
  if special then ['\\', c] else [c]

/-- A text that asks for its characters in either case, if so wished. -/
def folding (fold : Bool) (text : List Char) : List Char :=
  if fold then "(?i:".toList ++ text ++ [')'] else text

/-- The text in a group of its own, if so wished. -/
def grouped (wanted : Bool) (text : List Char) : List Char :=
  if wanted then "(?:".toList ++ text ++ [')'] else text

/-- How often a loop runs, in the plain grammar. -/
def countText (least : Nat) (most : Option Nat) : List Char :=
  match least, most with
  | 0, some 1 => ['?']
  | 0, none => ['*']
  | 1, none => ['+']
  | least, none => '\x7b' :: (toString least).toList ++ [',', '\x7d']
  | least, some most =>
    let upTo := if least = most then [] else ',' :: (toString most).toList
    '\x7b' :: (toString least).toList ++ upTo ++ ['\x7d']

/-- An expression in the plain grammar, where it is not hard. What surrounds it asks for a group: alternatives
from the strength 1 on, parts in a row from 2, loops from 3. -/
def plainText (strength : Nat) : Expression → List Char
  | .any lineFeed => if lineFeed then "(?s:.)".toList else ['.']
  | .literal c fold => folding fold (quoted c)
  | .verbatim text fold => folding fold text
  | .anchor .textStart => ['^']
  | .anchor .textEnd => ['$']
  | .anchor .lineStart => "(?m:^)".toList
  | .anchor .lineEnd => "(?m:$)".toList
  | .seq e f => grouped (1 < strength) (e.plainText 2 ++ f.plainText 2)
  | .alt e f => grouped (0 < strength) (e.plainText 1 ++ '|' :: f.plainText 1)
  | .loop e least most greedy =>
    grouped (2 < strength) (e.plainText 3 ++ countText least most ++ if greedy then [] else ['?'])
  | .group _ e => '(' :: e.plainText 0 ++ [')']
  | _ => []

/-- Looks behind for an expression and its pattern. What stands there has to have one width; alternatives may
each have their own. -/
def lookBehind? (negated : Bool) : Expression → Pattern → Option Pattern
  | .alt e f, .alt p q =>
    match (Expression.alt e f).width? with
    | some n => some (.behind negated n (.alt p q))
    | none => do
      let left ← lookBehind? negated e p
      let right ← lookBehind? negated f q
      return if negated then .seq left right else .alt left right
  | e, p => e.width?.map fun n => .behind negated n p

/-- The number of the first group. -/
def firstGroup? : Expression → Option Nat
  | .group index _ => some index
  | .seq e f | .alt e f => e.firstGroup? <|> f.firstGroup?
  | .loop e _ _ _ | .look _ _ e | .atomic e => e.firstGroup?
  | _ => none

/-- The pattern that an expression means. Parts that are not hard mean what the plain grammar says, which
counts their groups from one on. -/
def toPattern? (e : Expression) : Option Pattern :=
  if e.isHard then
    match e with
    | .seq e f => do return .seq (← e.toPattern?) (← f.toPattern?)
    | .alt e f => do return .alt (← e.toPattern?) (← f.toPattern?)
    | .loop e least most greedy => e.toPattern?.map (.loop · least most greedy)
    | .group index e => e.toPattern?.map (.capture index)
    | .look back negated e => do
      let p ← e.toPattern?
      if back then lookBehind? negated e p else return .ahead negated p
    | .atomic e => e.toPattern?.map .atomic
    | .again index => some (.again index)
    | .anchor a => some (.anchor a)
    | .searchStart => some (.anchor .textStart)
    | _ => some .empty
  else (Plain.parse? (e.plainText 1)).map (·.raiseGroups (e.firstGroup?.getD 1 - 1))

end Expression
end SchemaBound.Pattern
