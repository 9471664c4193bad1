import SchemaBound.Number.Reading
import SchemaBound.Text.Hex
import SchemaBound.Text.Pieces

/-! Internet addresses: their written forms. -/
namespace SchemaBound.Address
open Text (pieces)

def octet? (text : List Char) : Option Nat :=
  if text ≠ [] ∧ text.length ≤ 3 ∧ text.all Number.isDigit ∧ (text.length = 1 ∨ text.head? ≠ some '0') then
    let n := Number.digitsValue text
    if n ≤ 255 then some n else none
  else none

def octets? (text : List Char) : Option (List Nat) :=
  let parts := pieces '.' text
  if parts.length = 4 then parts.mapM octet? else none

def group? (text : List Char) : Option Nat :=
  if text ≠ [] ∧ text.length ≤ 4 then Text.hexNumber? text else none

/-- Groups of 16 bits with colons between them. The last one may be four bytes instead, which make two. -/
def groups? (bytesAllowed : Bool) : List (List Char) → Option (List Nat)
  | [] => some []
  | [last] =>
    match group? last with
    | some n => some [n]
    | none =>
      match bytesAllowed, octets? last with
      | true, some [a, b, c, d] => some [256 * a + b, 256 * c + d]
      | _, _ => none
  | part :: rest => do
    let n ← group? part
    let others ← groups? bytesAllowed rest
    return n :: others

/-- The text before the first two colons in a row and the text after them. -/
def cutAtGap? : List Char → Option (List Char × List Char)
  | ':' :: ':' :: rest => some ([], rest)
  | c :: rest => (cutAtGap? rest).map fun (before, after) => (c :: before, after)
  | [] => none

/-- Eight groups; two colons in a row stand for at least one group of zeros. -/
def ipv6? (text : List Char) : Option (List Nat) :=
  let part? (bytesAllowed : Bool) (part : List Char) : Option (List Nat) :=
    if part = [] then some [] else groups? bytesAllowed (pieces ':' part)
  match cutAtGap? text with
  | none => (part? true text).bind fun groups => if groups.length = 8 then some groups else none
  | some (before, after) => do
    let first ← part? false before
    let last ← part? true after
    if first.length + last.length ≤ 7 then
      return first ++ List.replicate (8 - first.length - last.length) 0 ++ last
    else none

def leadingZeros (groups : List Nat) : Nat := (groups.takeWhile (· = 0)).length

/-- Where the longest row of zeros starts and how long it is; the first of several. -/
def longestGap : Nat → List Nat → Nat × Nat
  | start, [] => (start, 0)
  | start, n :: rest =>
    let (later, length) := longestGap (start + 1) rest
    let here := leadingZeros (n :: rest)
    if length ≤ here then (start, here) else (later, length)

/-- Groups in hexadecimal; the longest row of at least two zeros shows as two colons. -/
def ipv6Text (groups : List Nat) : String :=
  let hex (n : Nat) : String := String.ofList (Nat.toDigits 16 n)
  let joined (list : List Nat) : String := ":".intercalate (list.map hex)
  let (start, length) := longestGap 0 groups
  if length < 2 then joined groups
  else joined (groups.take start) ++ "::" ++ joined (groups.drop (start + length))

/-- A number in an address of 32 bits: hexadecimal after `0x`, octal after another zero, decimal otherwise. -/
def number? (text : List Char) : Option Nat :=
  match text with
  | [] => none
  | '0' :: 'x' :: digits | '0' :: 'X' :: digits => Text.hexNumber? digits
  | '0' :: digit :: digits =>
    if (digit :: digits).all (fun c => '0' ≤ c && c ≤ '7') then
      some ((digit :: digits).foldl (fun n c => 8 * n + (c.toNat - 48)) 0)
    else none
  | digits => if digits.all Number.isDigit then some (Number.digitsValue digits) else none

/-- The parts between dots, without an empty one at the end. -/
def parts (text : List Char) : List (List Char) :=
  let all := pieces '.' text
  if all.getLast? = some [] then all.dropLast else all

/-- The last part of a host is a number, so that the host has to be an address of 32 bits. -/
def endsInNumber (text : List Char) : Bool :=
  match (parts text).getLast? with
  | some last => (last ≠ [] && last.all Number.isDigit) || (number? last).isSome
  | none => false

/-- An address of at most four numbers; the last one fills the bytes that remain. -/
def ipv4? (text : List Char) : Option Nat := do
  let numbers ← (parts text).mapM number?
  let last ← numbers.getLast?
  let first := numbers.dropLast
  let room := Nat.pow 256 (4 - first.length)
  if first.length ≤ 3 ∧ first.all (· ≤ 255) ∧ last < room then
    return first.foldl (fun n byte => 256 * n + byte) 0 * room + last
  else none

/-- An address of 32 bits as four bytes. -/
def ipv4Text (address : Nat) : String :=
  ".".intercalate ([3, 2, 1, 0].map fun i => toString (address / Nat.pow 256 i % 256))

end SchemaBound.Address
