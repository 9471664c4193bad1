import SchemaBound.Text.Hex

/-! Percent escapes: bytes written as `%XX`, and which characters each part of a URL escapes. -/
namespace SchemaBound.Url

/-- The character in UTF-8. -/
def bytesOf (c : Char) : List UInt8 := (String.ofList [c]).toUTF8.toList

/-- Reads `%XX` as the byte it stands for; any other `%` stands for itself. -/
def decodedBytes : List Char → List UInt8
  | [] => []
  | '%' :: a :: b :: rest =>
    match Text.hexValue? a, Text.hexValue? b with
    | some high, some low => UInt8.ofNat (16 * high + low) :: decodedBytes rest
    | _, _ => bytesOf '%' ++ decodedBytes (a :: b :: rest)
  | c :: rest => bytesOf c ++ decodedBytes rest

/-- A byte as `%XX`. -/
def escapedByte (b : UInt8) : List Char :=
  ['%', Text.upperHex (b.toNat / 16), Text.upperHex (b.toNat % 16)]

def escape (escaped : Char → Bool) (text : List Char) : List Char :=
  text.flatMap fun c => if escaped c then (bytesOf c).flatMap escapedByte else [c]

namespace Escaped

/-- Controls, and all that is not ASCII. -/
def control (c : Char) : Bool := c.toNat < 0x20 || 0x7F ≤ c.toNat

def fragment (c : Char) : Bool := control c || c = ' ' || c = '"' || c = '<' || c = '>' || c = '\x60'

def segment (c : Char) : Bool := fragment c || c = '#' || c = '?' || c = '\x7b' || c = '\x7d'

def user (c : Char) : Bool := segment c || ['/', ':', ';', '=', '@', '[', '\\', ']', '^', '|'].contains c

/-- What a query escapes; quotes only in the schemes that are special. -/
def query (special : Bool) (c : Char) : Bool :=
  control c || c = ' ' || c = '"' || c = '#' || c = '<' || c = '>' || (special && c = '\'')

end Escaped
end SchemaBound.Url
