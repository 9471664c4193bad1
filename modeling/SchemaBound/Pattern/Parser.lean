import SchemaBound.Pattern.Expression
import SchemaBound.Pattern.Matching

/-! Reading regular expressions, and their dialect in schemas. -/
namespace SchemaBound.Pattern

namespace Reading

/-- What is known while an expression is read: the text that is left, the flags in force, the length of the
whole text in bytes, and the groups so far with the names given to some. -/
structure Reader where
  rest : List Char
  flags : Plain.Flags
  bytes : Nat
  groups : Nat
  names : List (List Char × Nat)
  /-- Some group is asked for by its number. -/
  numbered : Bool

abbrev Read := StateT Reader Option

/-- Groups are nested less deep than this. -/
def nestingLimit : Nat := 64

/-- A remark up to its closing parenthesis; a backslash hides the character after it. -/
def afterRemark? : List Char → Option (List Char)
  | [] => none
  | ')' :: rest => some rest
  | '\\' :: _ :: rest => afterRemark? rest
  | _ :: rest => afterRemark? rest

/-- Skips remarks and, where the text is spaced, blanks. Each of at most `fuel` steps takes one of them. -/
def afterSpace? (spaced : Bool) : Nat → List Char → Option (List Char)
  | 0, text => some text
  | fuel + 1, text =>
    match text with
    | '(' :: '?' :: '#' :: rest => (afterRemark? rest).bind (afterSpace? spaced fuel)
    | '#' :: rest =>
      if spaced then afterSpace? spaced fuel ((rest.dropWhile (· ≠ '\n')).drop 1) else some text
    | c :: rest =>
      if spaced ∧ (c = ' ' ∨ c = '\r' ∨ c = '\n' ∨ c = '\t') then afterSpace? spaced fuel rest else some text
    | [] => some []

/-- Skips what does not count. -/
def skipSpace : Read Unit := do
  let r ← get
  let rest ← (afterSpace? r.flags.spaced (r.rest.length + 1) r.rest : Option (List Char))
  set { r with rest }

def goOn (rest : List Char) : Read Unit := modify ({ · with rest })

/-- Decimal digits in front of a text; the number has to fit 64 bits. -/
def decimal? (text : List Char) : Option (Nat × List Char) :=
  let digits := text.takeWhile Number.isDigit
  if digits = [] ∨ Number.digitsValue digits ≥ Nat.pow 2 64 then none
  else some (Number.digitsValue digits, text.dropWhile Number.isDigit)

/-- Numbers of rounds after the opening brace, if they are well-formed. The greatest number stands for no
bound. -/
def counts? (spaced : Bool) (text : List Char) : Option (Nat × Option Nat × List Char) := do
  let skip (text : List Char) := afterSpace? spaced (text.length + 1) text
  let bounded (n : Nat) : Option Nat := if n = 0xffffffffffffffff then none else some n
  let text ← skip text
  let (least, rest) ← if text.head? = some ',' then some (0, text) else decimal? text
  match ← skip rest with
  | '\x7d' :: rest => return (least, bounded least, rest)
  | ',' :: rest =>
    let rest ← skip rest
    let (most, rest) := match decimal? rest with
      | some (most, rest) => (bounded most, rest)
      | none => (none, rest)
    match ← skip rest with
    | '\x7d' :: rest => return (least, most, rest)
    | _ => none
  | _ => none

/-- A hexadecimal number after its letter: as many digits as that asks for, or up to eight in braces. -/
def hexChar? (count : Nat) (text : List Char) : Option (Char × List Char) :=
  let char? (digits : List Char) : Option Char :=
    (Text.hexNumber? digits).bind fun n => if n.isValidChar then some (Char.ofNat n) else none
  let digits := text.take count
  if digits.length = count ∧ (Text.hexNumber? digits).isSome then
    (char? digits).map fun c => (c, text.drop count)
  else match text with
    | '\x7b' :: inner => do
      let (digits, rest) ← Text.cut? '\x7d' inner
      if digits = [] ∨ digits.length > 8 then none else return (← char? digits, rest)
    | _ => none

/-- A name between two marks, of letters, digits and underscores. -/
def name? (first last : Char) (text : List Char) : Option (List Char × List Char) :=
  match text with
  | c :: rest =>
    let name := rest.takeWhile fun c => Text.isAlphanumeric c || c = '_'
    match rest.drop name.length with
    | d :: rest => if c = first ∧ d = last ∧ name ≠ [] then some (name, rest) else none
    | [] => none
  | [] => none

/-- Asks for a group again that has begun before. -/
def again (index : Nat) : Read Expression := do
  if (← get).groups < index then failure else return .again index

/-- The group of this name, or of this number. -/
def againByName (name : List Char) : Read Expression := do
  match (← get).names.lookup name, decimal? name with
  | some index, _ | none, some (index, []) => again index
  | _, _ => failure

/-- A text of the plain grammar under the flags in force. -/
def verbatim (text : String) : Read Expression := return .verbatim text.toList (← get).flags.fold

def literal (c : Char) : Read Expression := return .literal c (← get).flags.fold

/-- The text of a property up to its end. -/
def propertyText? (text : List Char) : Option (List Char × List Char) :=
  match text with
  | '\x7b' :: inner => (Text.cut? '\x7d' inner).map fun (name, rest) => ('\x7b' :: name ++ ['\x7d'], rest)
  | c :: rest => some ([c], rest)
  | [] => none

/-- What a letter after a backslash asks for, other than the letters that ask for a place. -/
def controlChar? : Char → Option Char
  | 'a' => some '\x07'
  | 'b' => some '\x08'
  | 'f' => some '\x0c'
  | 'n' => some '\n'
  | 'r' => some '\r'
  | 't' => some '\t'
  | 'v' => some '\x0b'
  | 'e' => some '\x1b'
  | _ => none

/-- The places that a letter after a backslash asks for. -/
def place? : Char → Option Expression
  | 'A' => some (.anchor .textStart)
  | 'z' => some (.anchor .textEnd)
  | 'b' => some (.anchor .wordBoundary)
  | 'B' => some (.anchor .noWordBoundary)
  | '<' => some (.anchor .wordStart)
  | '>' => some (.anchor .wordEnd)
  | 'K' => some .restart
  | 'G' => some .searchStart
  | _ => none

/-- An escape after its backslash. In a set there are no places and no groups. -/
def escape (inSet : Bool) : Read Expression := do
  let r ← get
  match r.rest with
  | [] => failure
  | c :: rest =>
    goOn rest
    match if inSet then none else place? c with
    | some e => return e
    | none =>
      if c.isDigit ∧ !inSet then
        let (index, rest) ← (decimal? r.rest : Option (Nat × List Char))
        if index ≥ r.bytes / 2 then failure
        set { r with rest, numbered := true }
        again index
      else if c = 'k' ∧ !inSet then
        let (name, rest) ← (name? '<' '>' rest : Option (List Char × List Char))
        goOn rest
        againByName name
      else if ['d', 's', 'w'].contains c.toLower then verbatim (String.ofList ['\\', c])
      else if c = 'h' then return .verbatim "[0-9A-Fa-f]".toList false
      else if c = 'H' then return .verbatim "[^0-9A-Fa-f]".toList false
      else if c = 'x' ∨ c = 'u' ∨ c = 'U' then
        let count := if c = 'x' then 2 else if c = 'u' then 4 else 8
        let (c, rest) ← (hexChar? count rest : Option (Char × List Char))
        goOn rest
        literal c
      else if c.toLower = 'p' ∧ rest ≠ [] then
        let (name, rest) ← (propertyText? rest : Option (List Char × List Char))
        goOn rest
        verbatim (String.ofList ('\\' :: c :: name))
      else match controlChar? c with
        | some control => literal control
        | none => if c.isAlpha ∧ c ≠ 'k' ∧ (place? c).isNone then failure else literal c

/-- The text of a set up to the bracket that closes it, with its escapes in the words of the plain grammar.
`depth` brackets are open. -/
def setText : Nat → Nat → Read (List Char)
  | 0, _ => failure
  | fuel + 1, depth => do
    match (← get).rest with
    | [] => failure
    | '\\' :: rest =>
      goOn rest
      let text ← match ← escape true with
        | .literal c _ => pure (if Plain.isMeta c then ['\\', c] else [c])
        | .verbatim text _ => pure text
        | _ => failure
      return text ++ (← setText fuel depth)
    | '[' :: rest =>
      goOn rest
      return '[' :: (← setText fuel (depth + 1))
    | ']' :: rest =>
      goOn rest
      if depth = 1 then return [']'] else return ']' :: (← setText fuel (depth - 1))
    | c :: rest =>
      goOn rest
      return c :: (← setText fuel depth)

/-- A set after its opening bracket. A closing bracket in first place stands for itself. -/
def characterSet : Read Expression := do
  let text := (← get).rest
  let (start, text) := if text.head? = some '^' then (['[', '^'], text.drop 1) else (['['], text)
  let (start, text) := if text.head? = some ']' then (start ++ ['\\', ']'], text.drop 1) else (start, text)
  goOn text
  return .verbatim (start ++ (← setText (text.length + 1) 1)) (← get).flags.fold

/-- Letters of flags. Those after the one hyphen are cleared. -/
def flags? (on : Bool) (flags : Plain.Flags) : List Char → Option Plain.Flags
  | [] => some flags
  | '-' :: rest => if on then flags? false flags rest else none
  | c :: rest =>
    if c = 'R' ∨ (c = 'u' ∧ !on) then none
    else (Plain.setFlag? on flags c).bind (flags? on · rest)

def closing : Read Unit := do
  skipSpace
  match (← get).rest with
  | ')' :: rest => goOn rest
  | _ => failure

/-- How often something is repeated, by the sign in front of the text. -/
def repetition? (spaced : Bool) (text : List Char) : Option (Nat × Option Nat × List Char) :=
  match text with
  | '?' :: rest => some (0, some 1, rest)
  | '*' :: rest => some (0, none, rest)
  | '+' :: rest => some (1, none, rest)
  | '\x7b' :: rest => counts? spaced rest
  | _ => none

mutual
/-- Alternatives, up to a closing parenthesis or the end. Groups have names or are asked for by number, not
both. -/
def alternatives : Nat → Nat → Read Expression
  | 0, _ => failure
  | fuel + 1, depth => do
    let e ← sequence fuel depth
    skipSpace
    let r ← get
    match r.rest with
    | '|' :: rest =>
      goOn rest
      return .alt e (← otherAlternatives fuel depth)
    | _ => if r.numbered ∧ r.names ≠ [] then failure else return e

/-- The alternatives after the first bar. -/
def otherAlternatives : Nat → Nat → Read Expression
  | 0, _ => failure
  | fuel + 1, depth => do
    let e ← sequence fuel depth
    skipSpace
    match (← get).rest with
    | '|' :: rest =>
      goOn rest
      return .alt e (← otherAlternatives fuel depth)
    | _ => return e

/-- Parts in a row, as long as there are any. -/
def sequence : Nat → Nat → Read Expression
  | 0, _ => failure
  | fuel + 1, depth => do
    let before := (← get).rest
    if before = [] then return .empty
    let e ← repeated fuel depth
    if (← get).rest.length = before.length then return .empty
    match e, ← sequence fuel depth with
    | .empty, f => return f
    | e, .empty => return e
    | e, f => return .seq e f

/-- One part with its repetition, which may be greedy, lazy or final. -/
def repeated : Nat → Nat → Read Expression
  | 0, _ => failure
  | fuel + 1, depth => do
    let e ← part fuel depth
    skipSpace
    let r ← get
    match repetition? r.flags.spaced r.rest with
    | none => return e
    | some (least, most, rest) =>
      if !e.isRepeatable then failure
      goOn rest
      skipSpace
      let rest := (← get).rest
      let (lazy, rest) := if rest.head? = some '?' then (true, rest.drop 1) else (false, rest)
      let e := Expression.loop e least most (lazy = r.flags.swapGreed)
      if rest.head? = some '+' then
        goOn (rest.drop 1)
        return .atomic e
      else
        goOn rest
        return e

/-- One part without its repetition; nothing where a sign stands that needs something in front of it. -/
def part : Nat → Nat → Read Expression
  | 0, _ => failure
  | fuel + 1, depth => do
    skipSpace
    let r ← get
    match r.rest with
    | [] => return .empty
    | '.' :: rest =>
      goOn rest
      return .any r.flags.dotAll
    | '^' :: rest =>
      goOn rest
      return .anchor (if r.flags.multiline then .lineStart else .textStart)
    | '$' :: rest =>
      goOn rest
      return .anchor (if r.flags.multiline then .lineEnd else .textEnd)
    | '(' :: rest =>
      goOn rest
      if depth + 1 ≥ nestingLimit then failure
      skipSpace
      group fuel (depth + 1)
    | '\\' :: rest =>
      goOn rest
      escape false
    | '[' :: rest =>
      goOn rest
      characterSet
    | c :: rest =>
      if c = '+' ∨ c = '*' ∨ c = '?' ∨ c = '|' ∨ c = ')' then return .empty
      else
        goOn rest
        literal c

def group : Nat → Nat → Read Expression
  | 0, _ => failure
  | fuel + 1, depth => do
    let r ← get
    let inside (rest : List Char) : Read Expression := do
      goOn rest
      let e ← alternatives fuel depth
      closing
      return e
    let capturing (named : Option (List Char)) (rest : List Char) : Read Expression := do
      let index := r.groups + 1
      set { r with
        groups := index
        names := match named with
          | some name => (name, index) :: r.names
          | none => r.names }
      return .group index (← inside rest)
    match r.rest with
    | '?' :: '=' :: rest => return .look false false (← inside rest)
    | '?' :: '!' :: rest => return .look false true (← inside rest)
    | '?' :: '<' :: '=' :: rest => return .look true false (← inside rest)
    | '?' :: '<' :: '!' :: rest => return .look true true (← inside rest)
    | '?' :: '>' :: rest => return .atomic (← inside rest)
    | '?' :: '<' :: _ =>
      let (name, rest) ← (name? '<' '>' (r.rest.drop 1) : Option (List Char × List Char))
      capturing (some name) rest
    | '?' :: 'P' :: '<' :: _ =>
      let (name, rest) ← (name? '<' '>' (r.rest.drop 2) : Option (List Char × List Char))
      capturing (some name) rest
    | '?' :: 'P' :: '=' :: _ =>
      let (name, rest) ← (name? '=' ')' (r.rest.drop 2) : Option (List Char × List Char))
      goOn rest
      againByName name
    | '?' :: rest =>
      let letters := rest.takeWhile fun c => c != ')' && c != ':'
      let flags ← (flags? true r.flags letters : Option Plain.Flags)
      match rest.drop letters.length with
      | ')' :: rest =>
        if letters = [] ∨ letters = ['-'] then failure
        set { r with rest, flags }
        return .empty
      | ':' :: rest =>
        if letters = ['-'] then failure
        set { r with rest, flags }
        let e ← alternatives fuel depth
        match (← get).rest with
        | ')' :: rest =>
          modify ({ · with rest, flags := r.flags })
          return e
        | _ => failure
      | _ => failure
    | rest => capturing none rest
end

end Reading

/-- Reads the text of a regular expression. Classes such as `\d` take in the characters of all scripts. -/
def parse? (text : String) : Option Pattern :=
  let chars := text.toList
  let start : Reading.Reader := ⟨chars, .initial, text.utf8ByteSize, 0, [], false⟩
  match (Reading.alternatives (5 * chars.length + 5) 0).run start with
  | some (e, r) => if r.rest = [] then e.toPattern? else none
  | none => none

/-- A control character written as `\c` with a letter becomes that character. -/
def withControls : List Char → List Char
  | '\\' :: 'c' :: c :: rest =>
    if c.isAlpha then Char.ofNat (c.toUpper.toNat - 64) :: withControls rest
    else '\\' :: withControls ('c' :: c :: rest)
  | c :: rest => c :: withControls rest
  | [] => []
termination_by text => text.length

/-- The characters that `\s` stands for in a schema. -/
def schemaBlanks : String := " \t\n\r\x0b\x0c\u2003\ufeff\u2029\u00a0"

/-- Writes the short classes out: in a schema digits and words are those of ASCII. -/
def withSchemaClasses : List Char → List Char
  | '\\' :: c :: rest =>
    (match c with
      | 'd' => "[0-9]".toList
      | 'D' => "[^0-9]".toList
      | 'w' => "[A-Za-z0-9_]".toList
      | 'W' => "[^A-Za-z0-9_]".toList
      | 's' => '[' :: schemaBlanks.toList ++ [']']
      | 'S' => '[' :: '^' :: schemaBlanks.toList ++ [']']
      | c => ['\\', c]) ++ withSchemaClasses rest
  | c :: rest => c :: withSchemaClasses rest
  | [] => []

/-- Reads a regular expression in the dialect of schemas. -/
def parseInSchema? (text : String) : Option Pattern :=
  parse? (String.ofList (withSchemaClasses (withControls text.toList)))

end SchemaBound.Pattern
