import SchemaBound.Instance.Construction

/-! Writes to sequences. The array that a write would make is checked as a whole. -/
namespace SchemaBound

/-- The largest position. Positions take 64 bits. -/
def maxIndex : Nat := UInt64.size - 1

/-- The memory that a program has. -/
class Memory where
  /-- No sequence grows to a position from here on. -/
  growthLimit : Nat
  /-- The number of elements up to a position takes no more bits than the position. -/
  growthLimit_le : growthLimit ≤ maxIndex

/-- The memory where nothing else is said: half of all addresses is the most that a sequence takes. -/
instance (priority := low) Memory.ofHalf : Memory := ⟨0x7fffffffffffffff, by decide⟩

namespace SequenceType

/-- What a position holds after it is given an input. Objects become instances of the element type, and
so do instances of another type. -/
def stage (type : SequenceType) : Element → Except Error Element
  | .plain v => buildElement type.element v
  | .model m => match type.element with
    | some element => if m.type.same element then .ok (.model m) else (element.create m.toJson).map .model
    | none => .ok (.plain m.toJson)

/-- Stages inputs for the positions from `start` on. -/
def stageFrom (type : SequenceType) (start : Nat) (inputs : List Element) :
    Except Error (List (Option Element)) :=
  (inputs.zipIdx start).mapM fun (input, i) => do
    return some (← (type.stage input).mapError (·.under (elementPointer i)))

end SequenceType

namespace Sequence

/-- The sum of a position and a count in a sequence of the length. A sum that takes more than 64 bits is cut down to the
largest position. Lengths never take more. -/
def saturatingAdd (length i count : Nat) : Nat := min (i + count) (max maxIndex length)

def push (s : Sequence) (inputs : List Element) : Except Error Sequence := do
  s.type.commit (s.items ++ (← s.type.stageFrom s.size inputs))

def append (s : Sequence) (input : Element) : Except Error Sequence := do
  let e ← (s.type.stage input).mapError (·.under (elementPointer s.size))
  s.type.commit (s.items ++ [some e])

/-- Adds elements at the front in their order. -/
def prepend (s : Sequence) (inputs : List Element) : Except Error Sequence := do
  s.type.commit ((← s.type.stageFrom 0 inputs) ++ s.items)

/-- Removes the last element. An empty sequence stays as it is and is not checked. -/
def removeLast (s : Sequence) : Except Error (Option Element × Sequence) :=
  match s.items.getLast? with
  | none => .ok (none, s)
  | some e => do return (e, ← s.type.commit s.items.dropLast)

/-- Removes the first element. An empty sequence stays as it is and is not checked. -/
def removeFirst (s : Sequence) : Except Error (Option Element × Sequence) :=
  match s.items with
  | [] => .ok (none, s)
  | e :: rest => do return (e, ← s.type.commit rest)

/-- Assigns a position; holes fill the positions between the end and it. -/
def setAt [Memory] (s : Sequence) (i : Nat) (input : Element) : Except Error Sequence := do
  if s.size ≤ i ∧ Memory.growthLimit ≤ i then throw (.indexOutOfRange i s.size)
  let e ← (s.type.stage input).mapError (·.under (elementPointer i))
  s.type.commit ((s.items ++ List.replicate (i + 1 - s.size) none).set i (some e))

/-- Puts elements in the place of up to `count` ones from `start` on, and returns those. -/
def spliceAt (s : Sequence) (start count : Nat) (inputs : List Element) :
    Except Error (List (Option Element) × Sequence) := do
  let start := min start s.size
  let stop := min (saturatingAdd s.size start count) s.size
  let inserted ← s.type.stageFrom start inputs
  let after ← s.type.commit (s.items.take start ++ inserted ++ s.items.drop stop)
  return ((s.items.drop start).take (stop - start), after)

def updateAt {α : Type} (s : Sequence) (i : Nat) (f : Model → Except Error (α × Model)) :
    Except Error (α × Sequence) :=
  match s.get? i with
  | some (.model nested) => do
    let (a, after) ← (f nested).mapError (·.under (elementPointer i))
    return (a, ← s.type.commit (s.items.set i (some (.model after))))
  | _ => .error (.notAModel (toString i))

end Sequence
end SchemaBound
