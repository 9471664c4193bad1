import SchemaBound.Instance.Basic

/-! Making instances: values are staged field by field, then checked as a whole and only then adopted. -/
namespace SchemaBound

/-- Staged plain values in canonical form. Nested instances stay as they are. -/
def adoptFields (canonical : Json) : List Field → List (Option FieldValue) → List (Option FieldValue)
  | field :: fields, some (.plain raw) :: values =>
    some (.plain ((canonical.get? field.name).getD raw)) :: adoptFields canonical fields values
  | _ :: fields, value :: values => value :: adoptFields canonical fields values
  | _, _ => []

/-- The instance with these staged values, if the object they make is acceptable. -/
def ModelType.commit (type : ModelType) (staged : List (Option FieldValue)) : Except Error Model :=
  match type.check (.obj (snapshot type.fields staged)) with
  | .ok canonical => .ok ⟨type, adoptFields canonical type.fields staged⟩
  | .error violations => .error (.validation violations)

/-- Staged plain elements in canonical form. Nested instances stay as they are. -/
def adoptElements : List Json → List (Option Element) → List (Option Element)
  | _, [] => []
  | canonical, some (.plain raw) :: items =>
    some (.plain (canonical.head?.getD raw)) :: adoptElements canonical.tail items
  | canonical, item :: items => item :: adoptElements canonical.tail items

/-- The sequence of these staged elements, if the array they make is acceptable. -/
def SequenceType.commit (type : SequenceType) (staged : List (Option Element)) : Except Error Sequence :=
  match type.check (.arr (listing staged)) with
  | .ok canonical => .ok ⟨type, adoptElements (canonical.items?.getD []) staged⟩
  | .error violations => .error (.validation violations)

/-- Nothing is set. No check is made. -/
def ModelType.empty (type : ModelType) : Model := ⟨type, type.fields.map fun _ => none⟩

/-- No elements. No check is made. -/
def SequenceType.empty (type : SequenceType) : Sequence := ⟨type, []⟩

def elementPointer (i : Nat) : String := "/" ++ toString i

mutual
/-- The instance that an object describes. Members that are not declared do not matter. -/
def ModelType.build : ModelType → List (String × Json) → Except Error Model
  | ⟨id, title, fields, validator, options⟩, data => do
    ModelType.commit ⟨id, title, fields, validator, options⟩ (← buildFields fields data)

/-- What each field holds after reading the members of an object. -/
def buildFields : List Field → List (String × Json) → Except Error (List (Option FieldValue))
  | [], _ => .ok []
  | field :: fields, data =>
    match data.lookup field.name with
    | none => do return none :: (← buildFields fields data)
    | some v => do
      let value ← field.build v
      return some value :: (← buildFields fields data)

/-- What the field holds after it is given a value. -/
def Field.build : Field → Json → Except Error FieldValue
  | ⟨name, _, kind⟩, v => (kind.build v).mapError (·.under (Pointer.child name))

/-- Objects and arrays become instances where the kind asks for them; anything else stays plain and is
left to the check of the whole. -/
def FieldKind.build : FieldKind → Json → Except Error FieldValue
  | .object type, .obj data => (type.build data).map .model
  | .array type, .arr items => (type.build items).map .sequence
  | _, v => .ok (.plain v)

def SequenceType.build : SequenceType → List Json → Except Error Sequence
  | ⟨id, element, validator, options⟩, items => do
    let staged ← items.zipIdx.mapM fun (v, i) =>
      (buildElement element v).mapError (·.under (elementPointer i))
    SequenceType.commit ⟨id, element, validator, options⟩ (staged.map some)

/-- Objects become instances of the element type, if there is one. -/
def buildElement : Option ModelType → Json → Except Error Element
  | some type, .obj data => (type.build data).map .model
  | _, v => .ok (.plain v)
end

/-- An object is read; anything else gives an empty instance. -/
def ModelType.create (type : ModelType) : Json → Except Error Model
  | .obj data => type.build data
  | _ => .ok type.empty

/-- The sequence of these items, which has to be acceptable. -/
def SequenceType.create (type : SequenceType) (items : List Json) : Except Error Sequence :=
  type.build items

mutual
/-- Reads an object into an instance: only the named fields change, and nested instances take objects
in the same way. -/
def Model.merge : Model → List (String × Json) → Except Error Model
  | ⟨type, values⟩, data => do type.commit (← mergeFields type.fields values data)

/-- What each field holds after reading the members of an object into what it held before. -/
def mergeFields : List Field → List (Option FieldValue) → List (String × Json) →
    Except Error (List (Option FieldValue))
  | field :: fields, current :: values, data =>
    match data.lookup field.name with
    | none => do return current :: (← mergeFields fields values data)
    | some v => do
      let value ← (mergeValue field.kind current v).mapError (·.under (Pointer.child field.name))
      return some value :: (← mergeFields fields values data)
  | _, _, _ => .ok []

/-- What a field holds after a value is read into what it held before. -/
def mergeValue : FieldKind → Option FieldValue → Json → Except Error FieldValue
  | .object _, some (.model m), .obj data => (m.merge data).map .model
  | kind, _, v => kind.build v
end

end SchemaBound
