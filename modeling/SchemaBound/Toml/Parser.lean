import SchemaBound.Toml.Basic
import SchemaBound.Number.Reading
import SchemaBound.Text.Hex
import SchemaBound.Text.Calendar

/-! Reads settings documents. -/
namespace SchemaBound.Toml

/-- How deep lists and inline tables may be nested, and how long a dotted key may be. -/
def maxDepth : Nat := 79

/-- Reads something at the start of a text; the rest of the text comes back with it. -/
abbrev Reader (α : Type) := List Char → Option (α × List Char)

def isSpace (c : Char) : Bool := c = ' ' || c = '\t'

def skipSpace (text : List Char) : List Char := text.dropWhile isSpace

/-- No control character; a tab is none. -/
def isPlain (c : Char) : Bool := c = '\t' || (0x20 ≤ c.toNat && c.toNat ≠ 0x7F)

def newline? : List Char → Option (List Char)
  | '\n' :: rest => some rest
  | '\r' :: '\n' :: rest => some rest
  | _ => none

def skipComment : List Char → List Char
  | '#' :: rest => rest.dropWhile isPlain
  | text => text

/-- Whatever may end a line, up to the start of the next one. -/
def endLine (text : List Char) : Option (List Char) :=
  match skipComment (skipSpace text) with
  | [] => some []
  | rest => newline? rest

/-- The text without blanks, line breaks and comments in front. -/
def skipBlankLines : (fuel : Nat) → List Char → List Char
  | 0, text => text
  | fuel + 1, text =>
    match skipComment (skipSpace text) with
    | [] => []
    | rest => match newline? rest with
      | some rest => skipBlankLines fuel rest
      | none => rest

def hexChar? (digits : List Char) : Option Char :=
  (Text.hexNumber? digits).bind fun n => if n.isValidChar then some (Char.ofNat n) else none

/-- The character that an escape stands for, after its backslash. -/
def escape? : Reader Char
  | 'b' :: rest => some ('\x08', rest)
  | 't' :: rest => some ('\t', rest)
  | 'n' :: rest => some ('\n', rest)
  | 'f' :: rest => some ('\x0c', rest)
  | 'r' :: rest => some ('\r', rest)
  | '"' :: rest => some ('"', rest)
  | '\\' :: rest => some ('\\', rest)
  | 'u' :: rest => if rest.length < 4 then none else (hexChar? (rest.take 4)).map (·, rest.drop 4)
  | 'U' :: rest => if rest.length < 8 then none else (hexChar? (rest.take 8)).map (·, rest.drop 8)
  | _ => none

def basicString : (fuel : Nat) → Reader (List Char)
  | 0, _ => none
  | _, [] => none
  | fuel + 1, c :: rest =>
    if c = '"' then some ([], rest)
    else if c = '\\' then do
      let (c, rest) ← escape? rest
      let (text, rest) ← basicString fuel rest
      return (c :: text, rest)
    else if isPlain c then do
      let (text, rest) ← basicString fuel rest
      return (c :: text, rest)
    else none

def literalString (text : List Char) : Option (List Char × List Char) :=
  let inside := text.takeWhile fun c => isPlain c && c ≠ '\''
  match text.drop inside.length with
  | '\'' :: rest => some (inside, rest)
  | _ => none

/-- Three quotes end a long string. Up to two more in front of them belong to it. -/
def longEnd? (quote : Char) (text : List Char) : Option (List Char × List Char) :=
  let count := (text.takeWhile (· = quote)).length
  if count < 3 then none
  else
    let kept := min (count - 3) 2
    some (List.replicate kept quote, text.drop (kept + 3))

/-- The rest of a string in three double quotes. A backslash at the end of a line joins it to the next
text. -/
def longBasic : (fuel : Nat) → Reader (List Char)
  | 0, _ => none
  | fuel + 1, text =>
    match longEnd? '"' text with
    | some found => some found
    | none =>
      match text with
      | [] => none
      | '\\' :: rest =>
        match newline? (skipSpace rest) with
        | some rest => longBasic fuel (rest.dropWhile fun c => isSpace c || c = '\n' || c = '\r')
        | none => do
          let (c, rest) ← escape? rest
          let (text, rest) ← longBasic fuel rest
          return (c :: text, rest)
      | c :: rest =>
        match newline? (c :: rest) with
        | some rest => (longBasic fuel rest).map fun (text, rest) => ('\n' :: text, rest)
        | none =>
          if isPlain c then (longBasic fuel rest).map fun (text, rest) => (c :: text, rest) else none

/-- The rest of a string in three single quotes. -/
def longLiteral : (fuel : Nat) → Reader (List Char)
  | 0, _ => none
  | fuel + 1, text =>
    match longEnd? '\'' text with
    | some found => some found
    | none =>
      match text with
      | [] => none
      | c :: rest =>
        match newline? (c :: rest) with
        | some rest => (longLiteral fuel rest).map fun (text, rest) => ('\n' :: text, rest)
        | none =>
          if isPlain c then (longLiteral fuel rest).map fun (text, rest) => (c :: text, rest) else none

def skipNewline (text : List Char) : List Char := (newline? text).getD text

def string? : Reader String
  | '"' :: '"' :: '"' :: rest => ofChars (longBasic (rest.length + 1) (skipNewline rest))
  | '\'' :: '\'' :: '\'' :: rest => ofChars (longLiteral (rest.length + 1) (skipNewline rest))
  | '"' :: rest => ofChars (basicString (rest.length + 1) rest)
  | '\'' :: rest => ofChars (literalString rest)
  | _ => none
where
  ofChars (found : Option (List Char × List Char)) : Option (String × List Char) :=
    found.map fun (s, rest) => (String.ofList s, rest)

def isKeyChar (c : Char) : Bool := c.isAlphanum || c = '_' || c = '-'

def simpleKey? : Reader String
  | '"' :: rest => (basicString (rest.length + 1) rest).map fun (s, rest) => (String.ofList s, rest)
  | '\'' :: rest => (literalString rest).map fun (s, rest) => (String.ofList s, rest)
  | text =>
    let key := text.takeWhile isKeyChar
    if key = [] then none else some (String.ofList key, text.drop key.length)

/-- A key: its parts with dots between them, and blanks around those. -/
def key? : (fuel : Nat) → Reader (List String)
  | 0, _ => none
  | fuel + 1, text => do
    let (first, rest) ← simpleKey? (skipSpace text)
    match skipSpace rest with
    | '.' :: rest => (key? fuel rest).map fun (others, rest) => (first :: others, rest)
    | rest => return ([first], rest)

/-- One or more digits; single underscores may stand between them. -/
def digits? (isDigit : Char → Bool) : Reader (List Char)
  | [] => none
  | [c] => if isDigit c then some ([c], []) else none
  | c :: next :: rest =>
    if ¬ isDigit c then none
    else if next = '_' then (digits? isDigit rest).map fun (ds, rest) => (c :: ds, rest)
    else match digits? isDigit (next :: rest) with
      | some (ds, rest) => some (c :: ds, rest)
      | none => if isDigit next then none else some ([c], next :: rest)

/-- A whole number in a base other than ten, after its mark. -/
def based? (isDigit : Char → Bool) (base : Nat) (text : List Char) : Option (Toml × List Char) := do
  let (ds, rest) ← digits? isDigit text
  let n := ds.foldl (fun n c => base * n + (Text.hexValue? c).getD 0) 0
  if n < Nat.pow 2 63 then return (.number, rest) else none

def exponent? : Reader Int
  | c :: rest =>
    if c = 'e' ∨ c = 'E' then
      let (negative, rest) := Number.takeSign rest
      (digits? Number.isDigit rest).map fun (ds, rest) =>
        let n : Int := Number.digitsValue ds
        (if negative then -n else n, rest)
    else none
  | [] => none

/-- An integer of 64 bits, or a decimal fraction, which does not exceed the doubles. -/
def decimal? (text : List Char) : Option (Toml × List Char) := do
  let (negative, text) := Number.takeSign text
  match text with
  | 'i' :: 'n' :: 'f' :: rest | 'n' :: 'a' :: 'n' :: rest => return (.number, rest)
  | _ =>
    let (whole, rest) ← match text with
      | '0' :: rest => some (['0'], rest)
      | _ => digits? Number.isDigit text
    let isFinite (fraction : List Char) (exponent : Int) : Bool :=
      let digits := Number.digitsValue (whole ++ fraction)
      negative || (Binary64.ofDecimal false digits (exponent - fraction.length)).isSome
    match rest with
    | '.' :: rest =>
      let (fraction, rest) ← digits? Number.isDigit rest
      match rest with
      | 'e' :: _ | 'E' :: _ =>
        let (exponent, rest) ← exponent? rest
        if isFinite fraction exponent then return (.number, rest) else none
      | _ => if isFinite fraction 0 then return (.number, rest) else none
    | 'e' :: _ | 'E' :: _ =>
      let (exponent, rest) ← exponent? rest
      if isFinite [] exponent then return (.number, rest) else none
    | _ =>
      let n := Number.digitsValue whole
      if n < Nat.pow 2 63 ∨ (negative ∧ n = Nat.pow 2 63) then return (.number, rest) else none

def number? : Reader Toml
  | '0' :: 'x' :: rest => based? (fun c => (Text.hexValue? c).isSome) 16 rest
  | '0' :: 'o' :: rest => based? (fun c => '0' ≤ c && c ≤ '7') 8 rest
  | '0' :: 'b' :: rest => based? (fun c => c = '0' || c = '1') 2 rest
  | text => decimal? text

/-- A two-digit number in a range, with the text after it. -/
def twoDigits? (low high : Nat) : Reader Nat
  | a :: b :: rest =>
    let n := Number.digitsValue [a, b]
    if Number.isDigit a ∧ Number.isDigit b ∧ low ≤ n ∧ n ≤ high then some (n, rest) else none
  | _ => none

def expect? (expected : Char) : List Char → Option (List Char)
  | c :: rest => if c = expected then some rest else none
  | [] => none

/-- A time of day, with the text after it. -/
def time? (text : List Char) : Option (List Char) := do
  let (_, rest) ← twoDigits? 0 23 text
  let (_, rest) ← twoDigits? 0 59 (← expect? ':' rest)
  let (_, rest) ← twoDigits? 0 60 (← expect? ':' rest)
  match rest with
  | '.' :: rest =>
    if (rest.takeWhile Number.isDigit) = [] then none else return rest.dropWhile Number.isDigit
  | _ => return rest

/-- The text after the offset of a time, which may be absent. -/
def offset? : List Char → Option (List Char)
  | 'Z' :: rest | 'z' :: rest => some rest
  | '+' :: rest | '-' :: rest => do
    let (_, rest) ← twoDigits? 0 23 rest
    let (_, rest) ← twoDigits? 0 59 (← expect? ':' rest)
    return rest
  | text => some text

def date? (text : List Char) : Option (List Char) := do
  let year := Number.digitsValue (text.take 4)
  let (month, rest) ← twoDigits? 1 12 (text.drop 5)
  let (_, rest) ← twoDigits? 1 (Calendar.daysInMonth year month) (← expect? '-' rest)
  match rest with
  | 'T' :: rest | 't' :: rest => offset? (← time? rest)
  | ' ' :: a :: b :: ':' :: after =>
    if Number.isDigit a ∧ Number.isDigit b then offset? (← time? (a :: b :: ':' :: after))
    else return rest
  | _ => return rest

/-- The text begins with so many digits and then this character. -/
def startsWith (count : Nat) (mark : Char) (text : List Char) : Bool :=
  (text.take count).length = count && (text.take count).all Number.isDigit &&
    (text.drop count).head? = some mark

def scalar? (text : List Char) : Option (Toml × List Char) :=
  if startsWith 4 '-' text then (date? text).map (.moment, ·)
  else if startsWith 2 ':' text then (time? text).map (.moment, ·)
  else number? text

/-- The items of a list after its opening bracket. -/
def items? (value? : Reader Toml) : (fuel : Nat) → Reader (List Toml)
  | 0, _ => none
  | fuel + 1, text =>
    match skipBlankLines (text.length + 1) text with
    | ']' :: rest => some ([], rest)
    | text => do
      let (v, rest) ← value? text
      match skipBlankLines (rest.length + 1) rest with
      | ',' :: rest => (items? value? fuel rest).map fun (vs, rest) => (v :: vs, rest)
      | ']' :: rest => return ([v], rest)
      | _ => none

def pair? (value? : Reader Toml) : Reader (List String × Toml) := fun text => do
  let (key, rest) ← key? maxDepth text
  let (v, rest) ← value? (skipSpace (← expect? '=' (skipSpace rest)))
  return ((key, v), rest)

/-- Adds a value under a key of one or more parts. -/
def assignKey (key : List String) (value : Toml) (members : Members) : Option Members :=
  match key.getLast? with
  | some name => assign name value key.dropLast members
  | none => none

/-- The members of an inline table after its opening brace. -/
def inlineMembers? (value? : Reader Toml) : (fuel : Nat) → Members → Reader Members
  | 0, _, _ => none
  | fuel + 1, members, text => do
    let ((key, v), rest) ← pair? value? text
    let members ← assignKey key v members
    match skipSpace rest with
    | ',' :: rest => inlineMembers? value? fuel members rest
    | '\x7d' :: rest => return (members, rest)
    | _ => none

/-- A value; the depth bounds its nesting. -/
def value? : (depth : Nat) → Reader Toml
  | depth, text =>
    match depth, text with
    | _, '"' :: _ | _, '\'' :: _ => (string? text).map fun (s, rest) => (.str s, rest)
    | _, 't' :: 'r' :: 'u' :: 'e' :: rest => some (.flag true, rest)
    | _, 'f' :: 'a' :: 'l' :: 's' :: 'e' :: rest => some (.flag false, rest)
    | 0, '[' :: _ => none
    | depth + 1, '[' :: rest =>
      (items? (value? depth) (rest.length + 1) rest).map fun (vs, rest) => (.list vs, rest)
    | 0, '\x7b' :: _ => none
    | depth + 1, '\x7b' :: rest =>
      match skipSpace rest with
      | '\x7d' :: rest => some (.table .inline [], rest)
      | rest =>
        (inlineMembers? (value? depth) (rest.length + 1) [] rest).map fun (members, rest) =>
          (.table .inline members, rest)
    | _, text => scalar? text

/-- A header in single or double brackets; the flag tells double ones. -/
def header? : Reader (Bool × List String)
  | '[' :: '[' :: rest => do
    let (key, rest) ← key? maxDepth rest
    return ((true, key), ← expect? ']' (← expect? ']' (skipSpace rest)))
  | '[' :: rest => do
    let (key, rest) ← key? maxDepth rest
    return ((false, key), ← expect? ']' (skipSpace rest))
  | _ => none

/-- Reads lines into a document. The path leads to the table that keys belong to. -/
def lines? : (fuel : Nat) → (path : List String) → Members → List Char → Option Members
  | 0, _, _, _ => none
  | fuel + 1, path, document, text =>
    match skipBlankLines (text.length + 1) text with
    | [] => some document
    | '[' :: rest => do
      let ((double, key), rest) ← header? ('[' :: rest)
      let name ← key.getLast?
      let document ←
        if double then openElement key.dropLast name document else openTable key.dropLast name document
      lines? fuel key document (← endLine rest)
    | text => do
      let ((key, v), rest) ← pair? (value? maxDepth) text
      lines? fuel path (← within (assignKey key v) path document) (← endLine rest)

/-- Reads a whole document. A byte order mark may stand in front. -/
def parse? (text : String) : Option Members :=
  let text := match text.toList with
    | '\uFEFF' :: rest => rest
    | all => all
  lines? (text.length + 1) [] [] text

end SchemaBound.Toml
