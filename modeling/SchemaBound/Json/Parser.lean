import SchemaBound.Json.Basic
import SchemaBound.Number.Reading
import SchemaBound.Text.Hex

/-! Reading JSON text: first its tokens, then the value they spell. -/
namespace SchemaBound.Json

/-- Lexical units of JSON text. -/
inductive Token where
  | openObject
  | closeObject
  | openArray
  | closeArray
  | comma
  | colon
  | scalar (v : Json)
deriving DecidableEq

private def fourHex? : List Char → Option (Nat × List Char)
  | a :: b :: c :: d :: rest => (Text.hexNumber? [a, b, c, d]).map (·, rest)
  | _ => none

/-- The character behind a backslash. Surrogates have to come as a pair. -/
def escaped? : List Char → Option (Char × List Char)
  | '"' :: rest => some ('"', rest)
  | '\\' :: rest => some ('\\', rest)
  | '/' :: rest => some ('/', rest)
  | 'b' :: rest => some ('\x08', rest)
  | 'f' :: rest => some ('\x0c', rest)
  | 'n' :: rest => some ('\n', rest)
  | 'r' :: rest => some ('\r', rest)
  | 't' :: rest => some ('\t', rest)
  | 'u' :: rest =>
    match fourHex? rest with
    | none => none
    | some (high, rest) =>
      if high < 0xD800 ∨ 0xDFFF < high then some (Char.ofNat high, rest)
      else if 0xDC00 ≤ high then none
      else match rest with
        | '\\' :: 'u' :: rest =>
          match fourHex? rest with
          | some (low, rest) =>
            if 0xDC00 ≤ low ∧ low ≤ 0xDFFF then
              some (Char.ofNat (0x10000 + (high - 0xD800) * 0x400 + (low - 0xDC00)), rest)
            else none
          | none => none
        | _ => none
  | _ => none

/-- A string body up to its closing quote. Each of at most `fuel` steps takes a character. -/
def stringBody? : Nat → List Char → Option (List Char × List Char)
  | 0, _ => none
  | _, [] => none
  | _, '"' :: rest => some ([], rest)
  | fuel + 1, '\\' :: rest => do
    let (c, rest) ← escaped? rest
    let (body, rest) ← stringBody? fuel rest
    return (c :: body, rest)
  | fuel + 1, c :: rest =>
    if c.toNat < 32 then none
    else do
      let (body, rest) ← stringBody? fuel rest
      return (c :: body, rest)

/-- Blanks between tokens: space, tab, line feed and carriage return. -/
def isBlank (c : Char) : Bool := c = ' ' || c = '\t' || c = '\n' || c = '\r'

private def inNumber (c : Char) : Bool :=
  Number.isDigit c || c = '+' || c = '-' || c = '.' || c = 'e' || c = 'E'

/-- All tokens of a text. Each of at most `fuel` steps takes a token or a blank. -/
def tokens? : Nat → List Char → Option (List Token)
  | _, [] => some []
  | 0, _ => none
  | fuel + 1, c :: rest =>
    let next (t : Token) (rest : List Char) := (tokens? fuel rest).map (t :: ·)
    if isBlank c then tokens? fuel rest
    else match c with
      | '\x7b' => next .openObject rest
      | '\x7d' => next .closeObject rest
      | '[' => next .openArray rest
      | ']' => next .closeArray rest
      | ',' => next .comma rest
      | ':' => next .colon rest
      | '"' => do
        let (body, rest) ← stringBody? (rest.length + 1) rest
        next (.scalar (.str (String.ofList body))) rest
      | 't' => match rest with
        | 'r' :: 'u' :: 'e' :: rest => next (.scalar (.bool true)) rest
        | _ => none
      | 'f' => match rest with
        | 'a' :: 'l' :: 's' :: 'e' :: rest => next (.scalar (.bool false)) rest
        | _ => none
      | 'n' => match rest with
        | 'u' :: 'l' :: 'l' :: rest => next (.scalar .null) rest
        | _ => none
      | c => do
        let n ← Number.ofLiteral? ((c :: rest).takeWhile inNumber)
        next (.scalar (.num n)) ((c :: rest).dropWhile inNumber)

/-- A container whose end has not been read: its finished items, last first, or its finished members in
order and the name of the one being read. -/
inductive Frame where
  | items (done : List Json)
  | members (done : List (String × Json)) (name : String)

/-- What the reader is ready for. -/
inductive Expectation where
  | value
  | valueOrClose
  | name
  | nameOrClose
  | colon (name : String)
  | commaOrClose
  | finish (v : Json)

/-- Open containers, innermost first, and the expectation inside the innermost one. -/
structure Reader where
  frames : List Frame
  expects : Expectation

def maxNesting : Nat := 127

/-- A finished value goes into the innermost open container. A repeated member name keeps its first
place and takes the last value. -/
def Reader.give (v : Json) : List Frame → Reader
  | [] => ⟨[], .finish v⟩
  | .items done :: outer => ⟨.items (v :: done) :: outer, .commaOrClose⟩
  | .members done name :: outer => ⟨.members (setMember name v done) name :: outer, .commaOrClose⟩

/-- Opens a container inside the innermost one. -/
def Reader.enter (r : Reader) (frame : Frame) (expects : Expectation) : Option Reader :=
  if r.frames.length < maxNesting then some ⟨frame :: r.frames, expects⟩ else none

/-- Takes a value of one token, or the beginning of a longer one. -/
def Reader.value (r : Reader) : Token → Option Reader
  | .scalar v => some (.give v r.frames)
  | .openArray => r.enter (.items []) .valueOrClose
  | .openObject => r.enter (.members [] "") .nameOrClose
  | _ => none

/-- Ends the innermost container. -/
def Reader.close (r : Reader) (t : Token) : Option Reader :=
  match t, r.frames with
  | .closeArray, .items done :: outer => some (.give (.arr done.reverse) outer)
  | .closeObject, .members done _ :: outer => some (.give (.obj done) outer)
  | _, _ => none

def Reader.step (r : Reader) (t : Token) : Option Reader :=
  match r.expects with
  | .value => r.value t
  | .valueOrClose => if t = .closeArray then r.close t else r.value t
  | .name | .nameOrClose =>
    match t, r.expects with
    | .scalar (.str name), _ => some { r with expects := .colon name }
    | .closeObject, .nameOrClose => r.close t
    | _, _ => none
  | .colon name =>
    match t, r.frames with
    | .colon, .members done _ :: outer => some ⟨.members done name :: outer, .value⟩
    | _, _ => none
  | .commaOrClose =>
    match t, r.frames with
    | .comma, .items _ :: _ => some { r with expects := .value }
    | .comma, .members _ _ :: _ => some { r with expects := .name }
    | _, _ => r.close t
  | .finish _ => none

def ofTokens? (tokens : List Token) : Option Json :=
  match tokens.foldlM Reader.step ⟨[], .value⟩ with
  | some ⟨[], .finish v⟩ => some v
  | _ => none

def parse? (text : String) : Option Json :=
  let chars := text.toList
  (tokens? (chars.length + 1) chars).bind ofTokens?

end SchemaBound.Json
