import SchemaBound.Json.Basic
import SchemaBound.Text.Hex

/-! JSON text of values: compact, and indented by two spaces. -/
namespace SchemaBound.Json

/-- Quotes, backslashes and the control characters below U+0020 are escaped, nothing else. -/
def escapeChar (c : Char) : List Char :=
  match c with
  | '"' => ['\\', '"']
  | '\\' => ['\\', '\\']
  | '\n' => ['\\', 'n']
  | '\r' => ['\\', 'r']
  | '\t' => ['\\', 't']
  | '\x08' => ['\\', 'b']
  | '\x0c' => ['\\', 'f']
  | c =>
    if c.toNat < 32 then ['\\', 'u', '0', '0', Text.lowerHex (c.toNat / 16), Text.lowerHex (c.toNat % 16)]
    else [c]

def quote (s : String) : String := String.ofList ('"' :: s.toList.flatMap escapeChar ++ ['"'])

mutual
/-- Compact text: no blanks. -/
def compact : Json → String
  | .null => "null"
  | .bool true => "true"
  | .bool false => "false"
  | .num n => n.toText
  | .str s => quote s
  | .arr items => "[" ++ compactItems items ++ "]"
  | .obj members => "\x7b" ++ compactMembers members ++ "\x7d"

/-- Items with commas between them. -/
def compactItems : List Json → String
  | [] => ""
  | [v] => v.compact
  | v :: rest => v.compact ++ "," ++ compactItems rest

/-- Members with commas between them. -/
def compactMembers : List (String × Json) → String
  | [] => ""
  | [(k, v)] => quote k ++ ":" ++ v.compact
  | (k, v) :: rest => quote k ++ ":" ++ v.compact ++ "," ++ compactMembers rest
end

/-- A line end and the blanks before the next line; each level has two. -/
private def newline (indent : Nat) : String := "\n" ++ String.ofList (List.replicate (2 * indent) ' ')

mutual
/-- Indented text at a nesting level; empty containers stay on one line. -/
def prettyAt (indent : Nat) : Json → String
  | .arr [] => "[]"
  | .arr (v :: rest) =>
    "[" ++ newline (indent + 1) ++ v.prettyAt (indent + 1) ++
      prettyItems (indent + 1) rest ++ newline indent ++ "]"
  | .obj [] => "\x7b\x7d"
  | .obj ((k, v) :: rest) =>
    "\x7b" ++ newline (indent + 1) ++ quote k ++ ": " ++ v.prettyAt (indent + 1) ++
      prettyMembers (indent + 1) rest ++ newline indent ++ "\x7d"
  | v => v.compact

/-- The items after the first, each on a line of its own. -/
def prettyItems (indent : Nat) : List Json → String
  | [] => ""
  | v :: rest => "," ++ newline indent ++ v.prettyAt indent ++ prettyItems indent rest

/-- The members after the first, each on a line of its own. -/
def prettyMembers (indent : Nat) : List (String × Json) → String
  | [] => ""
  | (k, v) :: rest =>
    "," ++ newline indent ++ quote k ++ ": " ++ v.prettyAt indent ++ prettyMembers indent rest
end

def pretty (v : Json) : String := v.prettyAt 0

end SchemaBound.Json
