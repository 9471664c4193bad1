import SchemaBound.Instance.Change
import SchemaBound.Instance.Splice

/-! Writes addressed by a pointer. Every level on the way is checked anew. -/
namespace SchemaBound

/-- A change of the place that a pointer addresses. -/
inductive Edit where
  | set (v : Json)
  | unset

namespace Pointer

/-- The tokens of a pointer that addresses a place inside an instance. -/
def target (pointer : String) : Except Error (List String) :=
  if pointer = "/" then .error (.invalidPointer pointer .namesNoField)
  else match tokens? pointer with
    | some tokens => .ok tokens
    | none => .error (.invalidPointer pointer .noLeadingSlash)

/-- Decimal digits below `2 ^ 64`, a plus sign may stand before them. -/
def naturalText? (token : String) : Option Nat :=
  let digits := match token.toList with
    | '+' :: rest => rest
    | all => all
  if digits = [] ∨ ¬ digits.all Number.isDigit then none
  else
    let n := Number.digitsValue digits
    if n < Nat.pow 2 64 then some n else none

/-- The position that a token addresses in a sequence; a dash stands for the end. -/
def position (pointer token : String) (length : Nat) : Except Error Nat :=
  if token = "-" then .ok length
  else if token.length > 1 ∧ token.toList.head? = some '0' then
    .error (.invalidPointer pointer .leadingZeros)
  else match naturalText? token with
    | some n => .ok n
    | none => .error (.invalidPointer pointer (.notAnIndex token))

end Pointer

mutual
/-- Changes the place that the tokens address from here. The pointer serves for messages. -/
def Model.edit [Memory] (pointer : String) (change : Edit) (m : Model) : List String → Except Error Model
  | [] => .error (.invalidPointer pointer .namesNoField)
  | [name] => match change with
    | .set v => m.set name (.plain v)
    | .unset => m.unset name
  | name :: next :: rest => match m.get? name with
    | some (.model _) =>
      (m.withModel name fun nested => do
        return ((), ← nested.edit pointer change (next :: rest))).map (·.2)
    | some (.sequence _) =>
      (m.withSequence name fun nested => do
        return ((), ← nested.edit pointer change (next :: rest))).map (·.2)
    | _ => match m.type.field? name with
      | none => .error (.unknownField name)
      | some _ => .error (.invalidPointer pointer (.noNestedValue name))

/-- Changes the place that the tokens address from here. -/
def Sequence.edit [Memory] (pointer : String) (change : Edit) (s : Sequence) : List String → Except Error Sequence
  | [] => .error (.invalidPointer pointer .namesNoElement)
  | [token] => do
    let i ← Pointer.position pointer token s.size
    match change with
    | .set v => s.setAt i (.plain v)
    | .unset =>
      if i < s.size then (s.spliceAt i 1 []).map (·.2)
      else .error (.invalidPointer pointer .noSuchElement)
  | token :: next :: rest => do
    let i ← Pointer.position pointer token s.size
    match s.get? i with
    | some (.model _) =>
      (s.updateAt i fun nested => do
        return ((), ← nested.edit pointer change (next :: rest))).map (·.2)
    | _ => .error (.invalidPointer pointer (.elementNotAModel i))
end

namespace Model

def setPointer [Memory] (m : Model) (pointer : String) (v : Json) : Except Error Model := do
  m.edit pointer (.set v) (← Pointer.target pointer)

def unsetPointer [Memory] (m : Model) (pointer : String) : Except Error Model := do
  m.edit pointer .unset (← Pointer.target pointer)

end Model
end SchemaBound
