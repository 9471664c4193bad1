import SchemaBound.Json.Basic
import SchemaBound.Number.Reading
import SchemaBound.Text.Pieces

/-! JSON pointers: reference tokens, their written form, and reading a value at a position. -/
namespace SchemaBound.Pointer

/-- A token with `~` and `/` written as `~0` and `~1`. -/
def escapeChars : List Char → List Char
  | [] => []
  | c :: rest =>
    if c = '~' then '~' :: '0' :: escapeChars rest
    else if c = '/' then '~' :: '1' :: escapeChars rest
    else c :: escapeChars rest

/-- Reads `~1` as `/` and `~0` as `~`; any other `~` stands for itself. -/
def unescapeChars : List Char → List Char
  | [] => []
  | '~' :: '1' :: rest => '/' :: unescapeChars rest
  | '~' :: '0' :: rest => '~' :: unescapeChars rest
  | c :: rest => c :: unescapeChars rest

def escape (token : String) : String := String.ofList (escapeChars token.toList)

def child (token : String) : String := "/" ++ escape token

def ofTokens : List String → String
  | [] => ""
  | token :: rest => child token ++ ofTokens rest

/-- The tokens of a pointer that starts with a slash. -/
def tokens? (pointer : String) : Option (List String) :=
  match pointer.toList with
  | '/' :: rest => some ((Text.pieces '/' rest).map fun piece => String.ofList (unescapeChars piece))
  | _ => none

/-- An array index in a pointer that reads: decimal digits without sign or leading zeros, below
`2 ^ 64`. -/
def readIndex? (token : String) : Option Nat :=
  let digits := token.toList
  if digits = [] ∨ ¬ digits.all Number.isDigit ∨ (digits.length > 1 ∧ digits.head? = some '0') then none
  else
    let n := Number.digitsValue digits
    if n < Nat.pow 2 64 then some n else none

end SchemaBound.Pointer

namespace SchemaBound.Json

def childAt? (v : Json) (token : String) : Option Json :=
  match v with
  | .obj members => members.lookup token
  | .arr items => (Pointer.readIndex? token).bind (items[·]?)
  | _ => none

/-- The value that a list of reference tokens addresses. -/
def follow? : Json → List String → Option Json
  | v, [] => some v
  | v, token :: rest => (v.childAt? token).bind (follow? · rest)

/-- The value at a pointer; the empty pointer addresses the whole value. -/
def pointer? (v : Json) (pointer : String) : Option Json :=
  if pointer = "" then some v else (Pointer.tokens? pointer).bind v.follow?

end SchemaBound.Json
