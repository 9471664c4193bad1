import SchemaBound.Instance.Construction

/-! Writes to models. A write that is refused leaves nothing behind: it yields no instance at all. -/
namespace SchemaBound

/-- What a field of this kind holds after it is given an input. Plain objects are read into the current
instance, if there is one; instances of another type are made anew. -/
def FieldKind.stage (kind : FieldKind) (current : Option FieldValue) : FieldValue → Except Error FieldValue
  | .plain v => mergeValue kind current v
  | .model m => match kind with
    | .object type => if m.type.same type then .ok (.model m) else (type.create m.toJson).map .model
    | _ => .ok (.plain m.toJson)
  | .sequence s => match kind with
    | .array type =>
      if s.type.same type then .ok (.sequence s) else (type.create (listing s.items)).map .sequence
    | _ => .ok (.plain s.toJson)

def changeField {α : Type} (name : String)
    (change : Field → Option FieldValue → Except Error (α × Option FieldValue)) :
    List Field → List (Option FieldValue) → Except Error (α × List (Option FieldValue))
  | field :: fields, current :: values =>
    if field.name = name then do
      let (a, value) ← change field current
      return (a, value :: values)
    else do
      let (a, rest) ← changeField name change fields values
      return (a, current :: rest)
  | _, _ => .error (.unknownField name)

namespace Model

def change {α : Type} (m : Model) (name : String)
    (f : Field → Option FieldValue → Except Error (α × Option FieldValue)) : Except Error (α × Model) := do
  let (a, values) ← changeField name f m.type.fields m.values
  return (a, ← m.type.commit values)

/-- Assigns a field. An object is read into the nested instance that the field holds. -/
def set (m : Model) (name : String) (input : FieldValue) : Except Error Model :=
  (m.change name fun field current => do
    let value ← (field.kind.stage current input).mapError (·.under (Pointer.child name))
    return ((), some value)).map (·.2)

/-- Assigns a field; nested instances are made anew. -/
def replace (m : Model) (name : String) (input : FieldValue) : Except Error Model :=
  (m.change name fun field _ => do
    let value ← (field.kind.stage none input).mapError (·.under (Pointer.child name))
    return ((), some value)).map (·.2)

def unset (m : Model) (name : String) : Except Error Model :=
  (m.change name fun _ _ => .ok ((), none)).map (·.2)

def setData (m : Model) : Json → Except Error Model
  | .obj data => m.type.build data
  | v => .error (.notAnObject v.typeName)

def updateData (m : Model) : Json → Except Error Model
  | .obj data => m.merge data
  | v => .error (.notAnObject v.typeName)

/-- Checks a candidate, or the current fields, and changes nothing. -/
def validate (m : Model) (candidate : Option Json) : Except Error Unit :=
  match m.type.check (candidate.getD m.toJson) with
  | .ok _ => .ok ()
  | .error violations => .error (.validation violations)

/-- Changes the nested instance in a field. -/
def withModel {α : Type} (m : Model) (name : String) (f : Model → Except Error (α × Model)) :
    Except Error (α × Model) :=
  m.change name fun _ current =>
    match current with
    | some (.model nested) => do
      let (a, after) ← (f nested).mapError (·.under (Pointer.child name))
      return (a, some (.model after))
    | _ => .error (.notAModel name)

def withSequence {α : Type} (m : Model) (name : String) (f : Sequence → Except Error (α × Sequence)) :
    Except Error (α × Model) :=
  m.change name fun _ current =>
    match current with
    | some (.sequence nested) => do
      let (a, after) ← (f nested).mapError (·.under (Pointer.child name))
      return (a, some (.sequence after))
    | _ => .error (.notASequence name)

end Model
end SchemaBound
