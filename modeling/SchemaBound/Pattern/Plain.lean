import SchemaBound.Number.Reading
import SchemaBound.Pattern.Basic
import SchemaBound.Text.Hex
import SchemaBound.Text.Pieces

/-! The grammar of plain regular expressions: no looking around, no repeated groups, sets with operations. -/
namespace SchemaBound.Pattern.Plain

/-- How the text is read from here on. -/
structure Flags where
  fold : Bool
  multiline : Bool
  dotAll : Bool
  swapGreed : Bool
  spaced : Bool

/-- No flag is set. -/
def Flags.initial : Flags := ⟨false, false, false, false, false⟩

/-- The text that is still to be read, the flags, and the groups so far with the names given to some. -/
structure Reader where
  rest : List Char
  flags : Flags
  groups : Nat
  names : List (List Char)

abbrev Read := StateT Reader Option

/-- The operations on sets. -/
inductive SetOperation where
  | intersection
  | difference
  | symmetric
deriving DecidableEq

def SetOperation.apply : SetOperation → CharSet → CharSet → CharSet
  | .intersection => .intersection
  | .difference => .difference
  | .symmetric => .symmetric

def isMeta (c : Char) : Bool :=
  ['\\', '.', '+', '*', '?', '(', ')', '|', '[', ']', '\x7b', '\x7d', '^', '$', '#', '&', '-', '~'].contains c

/-- White space and remarks that do not count where the text is spaced. -/
def afterBlanks : Nat → List Char → List Char
  | 0, text => text
  | fuel + 1, text =>
    match text with
    | '#' :: rest => afterBlanks fuel (rest.dropWhile (· ≠ '\n'))
    | c :: rest => if Text.isBlank c then afterBlanks fuel rest else text
    | [] => []

/-- Skips what does not count. -/
def skipBlanks : Read Unit :=
  modify fun r => if r.flags.spaced then { r with rest := afterBlanks r.rest.length r.rest } else r

def next : Read Char := do
  match (← get).rest with
  | c :: rest =>
    modify ({ · with rest })
    return c
  | [] => failure

/-- The next character, which stays. -/
def peek : Read (Option Char) := return (← get).rest.head?

def takes (expected : String) : Read Bool := do
  let r ← get
  if expected.toList.isPrefixOf r.rest then
    set { r with rest := r.rest.drop expected.length }
    return true
  else return false

/-- What a primitive item of an expression or a set can be. -/
inductive Item where
  | literal (c : Char)
  | set (s : CharSet)
  | anchor (a : Anchor)

/-- Exactly `count` hexadecimal digits, or some in braces, after the letter that announces them. -/
def hexChar? (count : Nat) (text : List Char) : Option (Char × List Char) :=
  let valid (digits rest : List Char) : Option (Char × List Char) := do
    let n ← Text.hexNumber? digits
    if digits ≠ [] ∧ n.isValidChar then some (Char.ofNat n, rest) else none
  match text with
  | '\x7b' :: inner =>
    match Text.cut? '\x7d' inner with
    | some (digits, rest) => valid digits rest
    | none => none
  | text => if text.length < count then none else valid (text.take count) (text.drop count)

/-- A property after `\p` or `\P`: one letter, or in braces a name or a key with a value. -/
def property? (negated : Bool) (text : List Char) : Option (CharSet × List Char) :=
  match text with
  | '\x7b' :: inner => do
    let (name, rest) ← Text.cut? '\x7d' inner
    let keyed (separator : Char) : Option (List Char × List Char) := Text.cut? separator name
    match keyed ':', keyed '=' with
    | some (key, value), _ =>
      return (.negatedIf negated (.property (← Text.Property.ofValue? key value)), rest)
    | none, some (key, value) =>
      let differs := key.getLast? = some '!'
      let key := if differs then key.dropLast else key
      return (.negatedIf (negated != differs) (.property (← Text.Property.ofValue? key value)), rest)
    | none, none => return (.negatedIf negated (.property (← Text.Property.ofName? name)), rest)
  | c :: rest => do return (.negatedIf negated (.property (← Text.Property.ofName? [c])), rest)
  | [] => none

def escape? (text : List Char) : Option (Item × List Char) :=
  match text with
  | 'd' :: rest => some (.set .decimal, rest)
  | 'D' :: rest => some (.set (.complement .decimal), rest)
  | 's' :: rest => some (.set .blank, rest)
  | 'S' :: rest => some (.set (.complement .blank), rest)
  | 'w' :: rest => some (.set .word, rest)
  | 'W' :: rest => some (.set (.complement .word), rest)
  | 'p' :: rest => (property? false rest).map fun (s, rest) => (.set s, rest)
  | 'P' :: rest => (property? true rest).map fun (s, rest) => (.set s, rest)
  | 'x' :: rest => (hexChar? 2 rest).map fun (c, rest) => (.literal c, rest)
  | 'u' :: rest => (hexChar? 4 rest).map fun (c, rest) => (.literal c, rest)
  | 'U' :: rest => (hexChar? 8 rest).map fun (c, rest) => (.literal c, rest)
  | 'a' :: rest => some (.literal '\x07', rest)
  | 'f' :: rest => some (.literal '\x0c', rest)
  | 't' :: rest => some (.literal '\t', rest)
  | 'n' :: rest => some (.literal '\n', rest)
  | 'r' :: rest => some (.literal '\r', rest)
  | 'v' :: rest => some (.literal '\x0b', rest)
  | 'A' :: rest => some (.anchor .textStart, rest)
  | 'z' :: rest => some (.anchor .textEnd, rest)
  | 'b' :: rest => some (.anchor .wordBoundary, rest)
  | 'B' :: rest => some (.anchor .noWordBoundary, rest)
  | '<' :: rest => some (.anchor .wordStart, rest)
  | '>' :: rest => some (.anchor .wordEnd, rest)
  | c :: rest => if c.toNat < 128 ∧ !c.isAlphanum then some (.literal c, rest) else none
  | [] => none

def escape : Read Item := do
  match escape? (← get).rest with
  | some (item, rest) =>
    modify ({ · with rest })
    return item
  | none => failure

def asciiClass? (name : String) : Option CharSet :=
  let lower := CharSet.range 'a' 'z'
  let upper := CharSet.range 'A' 'Z'
  let digit := CharSet.range '0' '9'
  match name with
  | "alnum" => some (.union digit (.union upper lower))
  | "alpha" => some (.union upper lower)
  | "ascii" => some (.range '\x00' '\x7f')
  | "blank" => some (.ofChars ['\t', ' '])
  | "cntrl" => some (.union (.range '\x00' '\x1f') (.single '\x7f'))
  | "digit" => some digit
  | "graph" => some (.range '!' '~')
  | "lower" => some lower
  | "print" => some (.range ' ' '~')
  | "punct" =>
    some (.union (.range '!' '/') (.union (.range ':' '@') (.union (.range '[' '\x60') (.range '\x7b' '~'))))
  | "space" => some (.union (.range '\t' '\r') (.single ' '))
  | "upper" => some upper
  | "word" => some (.union digit (.union upper (.union lower (.single '_'))))
  | "xdigit" => some (.union digit (.union (.range 'A' 'F') (.range 'a' 'f')))
  | _ => none

/-- A set of ASCII characters after its opening bracket, such as `:alpha:]`. -/
def asciiSet? (text : List Char) : Option (CharSet × List Char) := do
  match text with
  | ':' :: rest =>
    let negated := rest.head? = some '^'
    let (name, rest) ← Text.cut? ':' (if negated then rest.drop 1 else rest)
    match rest with
    | ']' :: rest => return (.negatedIf negated (← asciiClass? (String.ofList name)), rest)
    | _ => none
  | _ => none

def setItem : Read Item := do
  match ← next with
  | '\\' => escape
  | c => return .literal c

def setRange : Read CharSet := do
  let first ← setItem
  skipBlanks
  let whole : Read CharSet := match first with
    | .literal c => return .single c
    | .set s => return s
    | .anchor _ => failure
  match (← get).rest with
  | [] => failure
  | '-' :: rest =>
    let spaced := (← get).flags.spaced
    match (if spaced then afterBlanks rest.length rest else rest).head? with
    | some ']' | some '-' => whole
    | _ =>
      modify ({ · with rest })
      skipBlanks
      match first, ← setItem with
      | .literal low, .literal high => if high < low then failure else return .range low high
      | _, _ => failure
  | _ => whole

/-- Hyphens, and one closing bracket, that stand for themselves at the start of a set. -/
def setStart : Nat → CharSet → Read CharSet
  | 0, _ => failure
  | fuel + 1, sofar => do
    skipBlanks
    match ← peek with
    | some '-' =>
      let _ ← next
      setStart fuel (.union sofar (.single '-'))
    | some ']' =>
      if sofar = .none then
        let _ ← next
        return .single ']'
      else return sofar
    | _ => return sofar

mutual
def bracketed : Nat → Read CharSet
  | 0 => failure
  | fuel + 1 => do
    skipBlanks
    let negated ← takes "^"
    let start ← setStart fuel .none
    let s ← setRest fuel none start
    return .negatedIf negated (.foldedIf (← get).flags.fold s)

/-- The rest of a set. An operation takes all that stands before it, and what follows up to the next one. -/
def setRest : Nat → Option (SetOperation × CharSet) → CharSet → Read CharSet
  | 0, _, _ => failure
  | fuel + 1, pending, sofar => do
    skipBlanks
    let fold := (← get).flags.fold
    let complete := match pending with
      | none => sofar
      | some (op, left) => op.apply (.foldedIf fold left) (.foldedIf fold sofar)
    if ← takes "]" then return complete
    else if ← takes "&&" then setRest fuel (some (.intersection, complete)) .none
    else if ← takes "--" then setRest fuel (some (.difference, complete)) .none
    else if ← takes "~~" then setRest fuel (some (.symmetric, complete)) .none
    else if ← takes "[" then
      match asciiSet? (← get).rest with
      | some (s, rest) =>
        modify ({ · with rest })
        setRest fuel pending (.union sofar s)
      | none =>
        let s ← bracketed fuel
        setRest fuel pending (.union sofar s)
    else
      let s ← setRange
      setRest fuel pending (.union sofar s)
end

/-- A number of rounds; it has to fit 32 bits. -/
def number? (text : List Char) : Option (Nat × List Char) :=
  let text := text.dropWhile Text.isBlank
  let digits := text.takeWhile Number.isDigit
  if digits = [] ∨ Number.digitsValue digits ≥ Nat.pow 2 32 then none
  else some (Number.digitsValue digits, (text.dropWhile Number.isDigit).dropWhile Text.isBlank)

def counts? (text : List Char) : Option (Nat × Option Nat × List Char) :=
  let upTo (least : Nat) (text : List Char) : Option (Nat × Option Nat × List Char) :=
    match text.dropWhile Text.isBlank with
    | '\x7d' :: rest => some (least, none, rest)
    | text => do
      let (most, rest) ← number? text
      match rest with
      | '\x7d' :: rest => if most < least then none else some (least, some most, rest)
      | _ => none
  match text.dropWhile Text.isBlank with
  | ',' :: rest => upTo 0 rest
  | text => do
    let (least, rest) ← number? text
    match rest with
    | '\x7d' :: rest => some (least, some least, rest)
    | ',' :: rest => upTo least rest
    | _ => none

/-- Repetitions, if some come next. There has to be something to repeat. -/
def repetitions : Nat → Option Pattern → Read (Option Pattern)
  | 0, _ => failure
  | fuel + 1, p => do
    skipBlanks
    let r ← get
    let counted : Option (Nat × Option Nat × List Char) ← match r.rest with
      | '?' :: rest => pure (some (0, some 1, rest))
      | '*' :: rest => pure (some (0, none, rest))
      | '+' :: rest => pure (some (1, none, rest))
      | '\x7b' :: rest =>
        match counts? rest with
        | some c => pure (some c)
        | none => failure
      | _ => pure none
    match counted, p with
    | none, p => return p
    | some _, none => failure
    | some (least, most, rest), some body =>
      let lazy := rest.head? = some '?'
      set { r with rest := if lazy then rest.drop 1 else rest }
      repetitions fuel (some (.loop body least most (lazy = r.flags.swapGreed)))

def setFlag? (on : Bool) (flags : Flags) : Char → Option Flags
  | 'i' => some { flags with fold := on }
  | 'm' => some { flags with multiline := on }
  | 's' => some { flags with dotAll := on }
  | 'U' => some { flags with swapGreed := on }
  | 'x' => some { flags with spaced := on }
  | 'u' | 'R' => some flags
  | _ => none

/-- Letters of flags, each at most once, with one hyphen in front of those that are cleared. -/
def flags? (on : Bool) (flags : Flags) (seen : List Char) : List Char → Option Flags
  | [] => if on ∨ seen.head? ≠ some '-' then some flags else none
  | c :: rest =>
    if seen.contains c then none
    else if c = '-' then flags? false flags (c :: seen) rest
    else (setFlag? on flags c).bind fun flags => flags? on flags (c :: seen) rest

/-- The name of a group: letters, digits and a few signs, no digit in front. -/
def isGroupName (name : List Char) : Bool :=
  match name with
  | [] => false
  | first :: rest =>
    (first = '_' || Text.isAlphabetic first) &&
      rest.all fun c => c = '_' || c = '.' || c = '[' || c = ']' || Text.isAlphanumeric c

/-- How a group begins after its parenthesis. -/
inductive Opening where
  | capturing (name : Option (List Char))
  | flags (f : Flags)
  | group (f : Flags)

def opening : Read Opening := do
  skipBlanks
  let named (marks : Nat) : Read Opening := do
    let r ← get
    match Text.cut? '>' (r.rest.drop marks) with
    | some (name, rest) =>
      if isGroupName name ∧ !r.names.contains name then
        set { r with rest, names := name :: r.names }
        return .capturing (some name)
      else failure
    | none => failure
  let r ← get
  match r.rest with
  | '?' :: 'P' :: '<' :: _ => named 3
  | '?' :: '<' :: '=' :: _ | '?' :: '<' :: '!' :: _ | '?' :: '=' :: _ | '?' :: '!' :: _ => failure
  | '?' :: '<' :: _ => named 2
  | '?' :: rest =>
    let letters := rest.takeWhile fun c => c != ')' && c != ':'
    let flags ← (flags? true r.flags [] letters : Option Flags)
    match rest.drop letters.length with
    | ':' :: rest =>
      set { r with rest }
      return .group flags
    | ')' :: rest =>
      if letters = [] then failure
      set { r with rest }
      return .flags flags
    | _ => failure
  | _ => return .capturing none

mutual
/-- Alternatives, up to a closing parenthesis or the end. -/
def alternatives : Nat → Read Pattern
  | 0 => failure
  | fuel + 1 => do
    let p ← sequence fuel none
    if ← takes "|" then return .alt p (← alternatives fuel) else return p

/-- Parts in a row with their repetitions; `sofar` is what stands before them. -/
def sequence : Nat → Option Pattern → Read Pattern
  | 0, _ => failure
  | fuel + 1, sofar => do
    skipBlanks
    match ← peek with
    | none | some '|' | some ')' => return sofar.getD .empty
    | some _ =>
      let p ← part fuel
      let p ← repetitions ((← get).rest.length + 1) p
      sequence fuel (match sofar, p with
        | some q, some p => some (.seq q p)
        | sofar, none => sofar
        | none, p => p)

/-- One part without its repetitions; nothing where only flags are set. -/
def part : Nat → Read (Option Pattern)
  | 0 => failure
  | fuel + 1 => do
    let flags := (← get).flags
    match ← next with
    | '(' =>
      match ← opening with
      | .flags f =>
        modify ({ · with flags := f })
        return none
      | .group f =>
        modify ({ · with flags := f })
        let p ← alternatives fuel
        if ← takes ")" then
          modify ({ · with flags })
          return some p
        else failure
      | .capturing _ =>
        let index := (← get).groups + 1
        modify ({ · with groups := index })
        let p ← alternatives fuel
        if ← takes ")" then
          modify ({ · with flags })
          return some (.capture index p)
        else failure
    | '[' => return some (.char (← bracketed fuel))
    | '.' => return some (.char (if flags.dotAll then .property .any else .inLine))
    | '^' => return some (.anchor (if flags.multiline then .lineStart else .textStart))
    | '$' => return some (.anchor (if flags.multiline then .lineEnd else .textEnd))
    | '\\' =>
      match ← escape with
      | .literal c => return some (.char (.foldedIf flags.fold (.single c)))
      | .set s => return some (.char (.foldedIf flags.fold s))
      | .anchor a => return some (.anchor a)
    | c =>
      if c = '?' ∨ c = '*' ∨ c = '+' ∨ c = '\x7b' then failure
      else return some (.char (.foldedIf flags.fold (.single c)))
end

/-- The greatest automaton that is built, in bytes. -/
def costLimit : Nat := 10485760

/-- Reads the text of a plain expression, if it is one and is not too large. -/
def parse? (text : List Char) : Option Pattern :=
  match (alternatives (3 * text.length + 3)).run ⟨text, .initial, 0, []⟩ with
  | some (p, r) => if r.rest = [] ∧ p.cost ≤ costLimit then some p else none
  | none => none

end SchemaBound.Pattern.Plain
