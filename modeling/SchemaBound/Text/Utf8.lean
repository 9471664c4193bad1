/-! UTF-8: bytes read as text, and where bytes stop being text. -/
namespace SchemaBound.Text.Utf8

/-- The bytes from `start` on begin no character: so many of them, if there are enough to tell. -/
structure Fault where
  start : Nat
  length : Option Nat
deriving DecidableEq

def Fault.message (f : Fault) : String :=
  match f.length with
  | some n => "invalid utf-8 sequence of " ++ toString n ++ " bytes from index " ++ toString f.start
  | none => "incomplete utf-8 byte sequence from index " ++ toString f.start

/-- The ranges of the bytes that have to follow the first byte of a character. The narrow ones keep out
longer forms of a character than needed, surrogates, and numbers beyond the last character. -/
def following? (first : UInt8) : Option (List (UInt8 × UInt8)) :=
  let any : UInt8 × UInt8 := (0x80, 0xBF)
  if first < 0x80 then some []
  else if first < 0xC2 then none
  else if first < 0xE0 then some [any]
  else if first = 0xE0 then some [(0xA0, 0xBF), any]
  else if first = 0xED then some [(0x80, 0x9F), any]
  else if first < 0xF0 then some [any, any]
  else if first = 0xF0 then some [(0x90, 0xBF), any, any]
  else if first < 0xF4 then some [any, any, any]
  else if first = 0xF4 then some [(0x80, 0x8F), any, any]
  else none

/-- The first fault of bytes, in the middle of a character: `taken` bytes of it, which starts at `start`, are
read, and the bytes of the `expected` ranges are still to come. -/
def faultFrom (start taken : Nat) (expected : List (UInt8 × UInt8)) : List UInt8 → Option Fault
  | [] => if expected = [] then none else some ⟨start, none⟩
  | b :: rest =>
    match expected with
    | (low, high) :: others =>
      if low ≤ b ∧ b ≤ high then faultFrom start (taken + 1) others rest else some ⟨start, some taken⟩
    | [] =>
      match following? b with
      | some ranges => faultFrom (start + taken) 1 ranges rest
      | none => some ⟨start + taken, some 1⟩

def decode (bytes : List UInt8) : Except Fault String :=
  match faultFrom 0 0 [] bytes with
  | some fault => .error fault
  | none => .ok ((String.fromUTF8? ⟨bytes.toArray⟩).getD "")

end SchemaBound.Text.Utf8
