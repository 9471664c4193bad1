import SchemaBound.Pattern.Basic

/-! Whether some part of a text matches a regular expression. -/
namespace SchemaBound.Pattern

/-- The members of two ascending lists, each once. -/
def union (xs ys : List Nat) : List Nat := (xs.merge ys).eraseReps

/-- The members of the second of two ascending lists that the first one lacks. -/
def beyond : List Nat → List Nat → List Nat
  | _, [] => []
  | [], ys => ys
  | x :: xs, y :: ys =>
    if y < x then y :: beyond (x :: xs) ys
    else if x < y then beyond xs (y :: ys)
    else beyond xs ys
termination_by xs ys => xs.length + ys.length

/-- Positions after exactly `n` rounds. Once a round changes nothing, no further one does. -/
def rounds (step : List Nat → List Nat) : Nat → List Nat → List Nat
  | 0, front => front
  | n + 1, front =>
    let next := step front
    if next = front then front else rounds step n next

/-- Positions after at most `n` rounds from `front`, besides those reached before. What a round reaches again
leads nowhere new. -/
def roundsUpTo (step : List Nat → List Nat) : Nat → List Nat → List Nat → List Nat
  | 0, reached, _ => reached
  | n + 1, reached, front =>
    let next := beyond reached (step front)
    if next = [] then reached else roundsUpTo step n (union reached next) next

/-- The positions where matches of a plain expression that start in `front` can end; both are ascending. A loop
needs no more rounds than there are characters: further ones reach nothing new. -/
def ends (text : Array Char) : Pattern → List Nat → List Nat
  | .empty, front => front
  | .char set, front => (front.filter fun i => (text[i]?.map set.holds).getD false).map (· + 1)
  | .seq p q, front => ends text q (ends text p front)
  | .alt p q, front => union (ends text p front) (ends text q front)
  | .loop p least most _, front =>
    let more := match most with
      | some n => min (n - least) (text.size + 1)
      | none => text.size + 1
    let first := rounds (ends text p) least front
    roundsUpTo (ends text p) more first first
  | .anchor a, front => front.filter fun i => a.holds text i
  | .capture _ p, front => ends text p front
  | .ahead negated p, front => front.filter fun i => (ends text p [i]).isEmpty = negated
  | .behind negated length p, front =>
    front.filter fun i => (i < length || (ends text p [i - length]).isEmpty) = negated
  | .again _, _ | .atomic _, _ => []

/-- Where a match has got to, and the start and end of each group that has matched, the latest first. -/
structure Progress where
  position : Nat
  groups : List (Nat × Nat × Nat)

/-- How the search for a match ends. A search may turn back only so often; `turns` says how often it still
may. -/
inductive Outcome where
  | matched (s : Progress) (turns : Nat)
  | failed (turns : Nat)
  | givenUp

namespace Outcome

/-- Turns back and tries something else, if the search failed and may still turn back. -/
def orElse : Outcome → (Nat → Outcome) → Outcome
  | .failed 0, _ => .givenUp
  | .failed (turns + 1), other => other turns
  | outcome, _ => outcome

end Outcome

/-- A way to go on from a match, with the number of times that the search may still turn back. -/
abbrev Continuation := Progress → Nat → Outcome

/-- Rounds of a loop: first as many as it needs, then more or fewer of them. A round without end that takes no
text is not made. Each of at most `fuel` steps is one round. -/
def repeated (step : Progress → Nat → Continuation → Outcome) (greedy endless : Bool) :
    Nat → Nat → Progress → Nat → Continuation → Outcome
  | 0, least, s, turns, next => if least = 0 then next s turns else .failed turns
  | fuel + 1, least, s, turns, next =>
    let another (turns : Nat) : Outcome := step s turns fun t turns =>
      if endless && least = 0 && t.position = s.position then .failed turns
      else repeated step greedy endless fuel (least - 1) t turns next
    if least ≠ 0 then another turns
    else if greedy then (another turns).orElse (next s)
    else (next s turns).orElse another

/-- The characters of the text from `start` on are those between `first` and `last`. -/
def sameText (text : Array Char) (first last start : Nat) : Bool :=
  (List.range (last - first)).all fun k => start + k < text.size && text[first + k]? = text[start + k]?

/-- Goes on from a place if what was looked for around it was found, or was not found where it should not be. -/
def look (negated : Bool) (found : Outcome) (s : Progress) (next : Continuation) : Outcome :=
  match found with
  | .matched t turns => if negated then .failed turns else next { t with position := s.position } turns
  | .failed turns => if negated then next s turns else .failed turns
  | .givenUp => .givenUp

/-- Tries the ways to match in order of preference, and the ways to go on after each. -/
def run (text : Array Char) : Pattern → Progress → Nat → Continuation → Outcome
  | .empty, s, turns, next => next s turns
  | .char set, s, turns, next =>
    match text[s.position]? with
    | some c => if set.holds c then next { s with position := s.position + 1 } turns else .failed turns
    | none => .failed turns
  | .seq p q, s, turns, next => run text p s turns fun t turns => run text q t turns next
  | .alt p q, s, turns, next => (run text p s turns next).orElse fun turns => run text q s turns next
  | .loop p least most greedy, s, turns, next =>
    repeated (run text p) greedy most.isNone (most.getD (least + text.size + 1)) least s turns next
  | .anchor a, s, turns, next => if a.holds text s.position then next s turns else .failed turns
  | .capture index p, s, turns, next =>
    run text p s turns fun t => next { t with groups := (index, s.position, t.position) :: t.groups }
  | .again index, s, turns, next =>
    match s.groups.lookup index with
    | some (first, last) =>
      if sameText text first last s.position then
        next { s with position := s.position + (last - first) } turns
      else .failed turns
    | none => .failed turns
  | .ahead negated p, s, turns, next => look negated (run text p s turns .matched) s next
  | .behind negated length p, s, turns, next =>
    let found :=
      if length ≤ s.position then run text p { s with position := s.position - length } turns .matched
      else .failed turns
    look negated found s next
  | .atomic p, s, turns, next =>
    match run text p s turns .matched with
    | .matched t turns => next t turns
    | outcome => outcome

/-- How often a search turns back before it is given up. -/
def turnLimit : Nat := 1000000

def runFrom (p : Pattern) (text : Array Char) : List Nat → Nat → Outcome
  | [], turns => .failed turns
  | i :: rest, turns => (run text p ⟨i, []⟩ turns .matched).orElse (runFrom p text rest)

/-- Whether some part of the text matches, unless the search takes too long. -/
def search? (p : Pattern) (text : String) : Option Bool :=
  let chars := text.toList.toArray
  let starts := List.range (chars.size + 1)
  if p.isPlain then some !(ends chars p starts).isEmpty
  else
    match runFrom p chars starts turnLimit with
    | .matched _ _ => some true
    | .failed _ => some false
    | .givenUp => none

/-- Some part of the text is found to match. -/
def occursIn (p : Pattern) (text : String) : Bool := (p.search? text).getD false

end SchemaBound.Pattern
