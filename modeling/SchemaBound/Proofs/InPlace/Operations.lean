import SchemaBound.Proofs.InPlace.Basic
import SchemaBound.Proofs.Instance.Slots

/-! The writes as changes in place: each stages its values aside and adopts them once they are checked. -/
namespace SchemaBound

/-- The nested instance, if it is one. -/
def FieldValue.asModel? : FieldValue → Option Model
  | .model m => some m
  | _ => none

/-- The sequence, if it is one. -/
def FieldValue.asSequence? : FieldValue → Option Sequence
  | .sequence s => some s
  | _ => none

namespace InPlace

variable {α : Type}

/-- Checks the staged values as a whole, then adopts them. -/
def commitModel (staged : List (Option FieldValue)) : InPlace Model Unit := do
  let m ← get
  match m.type.check (.obj (snapshot m.type.fields staged)) with
  | .ok canonical => set (⟨m.type, adoptFields canonical m.type.fields staged⟩ : Model)
  | .error violations => throw (.validation violations)

/-- Stages a new content for one field and commits. -/
def changeField (name : String)
    (change : Field → Option FieldValue → InPlace Model (α × Option FieldValue)) : InPlace Model α := do
  let m ← get
  match m.slotOf? name with
  | none => throw (.unknownField name)
  | some (slot, field, current) =>
    let (a, value) ← change field current
    commitModel (m.values.set slot value)
    return a

/-- Assigns a field. -/
def setField (name : String) (input : FieldValue) : InPlace Model Unit :=
  changeField name fun field current => do
    let value ← liftM ((field.kind.stage current input).mapError (·.under (Pointer.child name)))
    return ((), some value)

/-- Assigns a field; nested instances are made anew. -/
def replaceField (name : String) (input : FieldValue) : InPlace Model Unit :=
  changeField name fun field _ => do
    let value ← liftM ((field.kind.stage none input).mapError (·.under (Pointer.child name)))
    return ((), some value)

/-- Removes a field. -/
def unsetField (name : String) : InPlace Model Unit :=
  changeField name fun _ _ => return ((), none)

/-- Stages all fields at once and commits. -/
def load (stage : Model → Except Error (List (Option FieldValue))) : InPlace Model Unit := do
  commitModel (← liftM (stage (← get)))

/-- Replaces all fields by those of an object. -/
def setData : Json → InPlace Model Unit
  | .obj data => load fun m => buildFields m.type.fields data
  | v => throw (.notAnObject v.typeName)

/-- Reads an object into the fields. -/
def updateData : Json → InPlace Model Unit
  | .obj data => load fun m => mergeFields m.type.fields m.values data
  | v => throw (.notAnObject v.typeName)

/-- Changes a copy of what a field holds, if it is held in the way that `view` looks for, and puts it
back. -/
def withNested {τ : Type} (view : FieldValue → Option τ) (hold : τ → FieldValue) (absent : Error)
    (name : String) (f : InPlace τ α) : InPlace Model α :=
  changeField name fun _ current =>
    match current.bind view with
    | some nested => do
      let (a, after) ← onCopy (Error.under (Pointer.child name)) f nested
      return (a, some (hold after))
    | none => throw absent

/-- Changes a copy of the nested instance in a field and puts it back. -/
def withModel (name : String) (f : InPlace Model α) : InPlace Model α :=
  withNested FieldValue.asModel? .model (.notAModel name) name f

/-- Changes a copy of the sequence in a field and puts it back. -/
def withSequence (name : String) (f : InPlace Sequence α) : InPlace Model α :=
  withNested FieldValue.asSequence? .sequence (.notASequence name) name f

/-- Checks the staged elements as a whole, then adopts them. -/
def commitSequence (staged : List (Option Element)) : InPlace Sequence Unit := do
  let s ← get
  match s.type.check (.arr (listing staged)) with
  | .ok canonical => set (⟨s.type, adoptElements (canonical.items?.getD []) staged⟩ : Sequence)
  | .error violations => throw (.validation violations)

/-- Stages elements from those there are and commits. -/
def changeItems (stage : Sequence → Except Error (α × List (Option Element))) : InPlace Sequence α := do
  let (a, staged) ← liftM (stage (← get))
  commitSequence staged
  return a

/-- Adds elements at the end. -/
def push (inputs : List Element) : InPlace Sequence Unit :=
  changeItems fun s => do return ((), s.items ++ (← s.type.stageFrom s.size inputs))

/-- Adds one element at the end. -/
def append (input : Element) : InPlace Sequence Unit :=
  changeItems fun s => do
    let e ← (s.type.stage input).mapError (·.under (elementPointer s.size))
    return ((), s.items ++ [some e])

/-- Adds elements at the front in their order. -/
def prepend (inputs : List Element) : InPlace Sequence Unit :=
  changeItems fun s => do return ((), (← s.type.stageFrom 0 inputs) ++ s.items)

/-- Removes the last element, if there is one. -/
def removeLast : InPlace Sequence (Option Element) := do
  match (← get).items.getLast? with
  | none => return none
  | some e => changeItems fun s => return (e, s.items.dropLast)

/-- Removes the first element, if there is one. -/
def removeFirst : InPlace Sequence (Option Element) := do
  match (← get).items with
  | [] => return none
  | e :: rest => changeItems fun _ => return (e, rest)

/-- Assigns a position; holes fill the positions between the end and it. -/
def setAt [Memory] (i : Nat) (input : Element) : InPlace Sequence Unit :=
  changeItems fun s => do
    if s.size ≤ i ∧ Memory.growthLimit ≤ i then throw (.indexOutOfRange i s.size)
    let e ← (s.type.stage input).mapError (·.under (elementPointer i))
    return ((), (s.items ++ List.replicate (i + 1 - s.size) none).set i (some e))

/-- Puts elements in the place of up to `count` ones from `start` on. -/
def spliceAt (start count : Nat) (inputs : List Element) : InPlace Sequence (List (Option Element)) :=
  changeItems fun s => do
    let start := min start s.size
    let stop := min (Sequence.saturatingAdd s.size start count) s.size
    let inserted ← s.type.stageFrom start inputs
    return ((s.items.drop start).take (stop - start), s.items.take start ++ inserted ++ s.items.drop stop)

/-- Changes a copy of the instance at a position and puts it back. -/
def updateAt (i : Nat) (f : InPlace Model α) : InPlace Sequence α := do
  let s ← get
  match s.get? i with
  | some (.model nested) =>
    let (a, after) ← onCopy (Error.under (elementPointer i)) f nested
    commitSequence (s.items.set i (some (.model after)))
    return a
  | _ => throw (.notAModel (toString i))

mutual
/-- Changes the place that the tokens address from here. -/
def editModel [Memory] (pointer : String) (change : Edit) : List String → InPlace Model Unit
  | [] => throw (.invalidPointer pointer .namesNoField)
  | [name] => match change with
    | .set v => setField name (.plain v)
    | .unset => unsetField name
  | name :: next :: rest => do
    let m ← get
    match m.get? name with
    | some (.model _) => withModel name (editModel pointer change (next :: rest))
    | some (.sequence _) => withSequence name (editSequence pointer change (next :: rest))
    | _ => match m.type.field? name with
      | none => throw (.unknownField name)
      | some _ => throw (.invalidPointer pointer (.noNestedValue name))

/-- Changes the place that the tokens address from here. -/
def editSequence [Memory] (pointer : String) (change : Edit) : List String → InPlace Sequence Unit
  | [] => throw (.invalidPointer pointer .namesNoElement)
  | [token] => do
    let s ← get
    let i ← liftM (Pointer.position pointer token s.size)
    match change with
    | .set v => setAt i (.plain v)
    | .unset =>
      if i < s.size then
        let _ ← spliceAt i 1 []
        return ()
      else throw (.invalidPointer pointer .noSuchElement)
  | token :: next :: rest => do
    let s ← get
    let i ← liftM (Pointer.position pointer token s.size)
    match s.get? i with
    | some (.model _) => updateAt i (editModel pointer change (next :: rest))
    | _ => throw (.invalidPointer pointer (.elementNotAModel i))
end

/-- Assigns the place at a pointer. -/
def setPointer [Memory] (pointer : String) (v : Json) : InPlace Model Unit := do
  editModel pointer (.set v) (← liftM (Pointer.target pointer))

/-- Removes the field or element at a pointer. -/
def unsetPointer [Memory] (pointer : String) : InPlace Model Unit := do
  editModel pointer .unset (← liftM (Pointer.target pointer))

end InPlace
end SchemaBound
