import SchemaBound.Text.Hex
import SchemaBound.Text.Shown

/-! Quoted text in which every character can be seen. -/
namespace SchemaBound.Text

/-- Hexadecimal digits without leading zeros, after at most eight steps. -/
def hexDigits : (steps : Nat) → Nat → List Char
  | 0, _ => []
  | steps + 1, n => (if n < 16 then [] else hexDigits steps (n / 16)) ++ [lowerHex (n % 16)]

/-- Quotes, backslashes and characters that do not show are escaped. -/
def showChar (c : Char) : List Char :=
  match c with
  | '"' => ['\\', '"']
  | '\\' => ['\\', '\\']
  | '\n' => ['\\', 'n']
  | '\r' => ['\\', 'r']
  | '\t' => ['\\', 't']
  | '\x00' => ['\\', '0']
  | c => if isShown c then [c] else ['\\', 'u', '\x7b'] ++ hexDigits 8 c.toNat ++ ['\x7d']

def quoted (s : String) : String := String.ofList ('"' :: s.toList.flatMap showChar ++ ['"'])

end SchemaBound.Text
