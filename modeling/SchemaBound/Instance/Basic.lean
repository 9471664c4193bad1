import SchemaBound.Blueprint.Basic

/-! Instances of compiled types, and the JSON values they stand for. -/
namespace SchemaBound

mutual
/-- An instance of a model type. -/
structure Model where
  type : ModelType
  /-- What each declared field holds, in the order of declaration. -/
  values : List (Option FieldValue)

/-- What a field holds. -/
inductive FieldValue where
  | plain (v : Json)
  | model (m : Model)
  | sequence (s : Sequence)

/-- An instance of a sequence type. -/
structure Sequence where
  type : SequenceType
  /-- Elements; a position that nothing was assigned to is a hole. -/
  items : List (Option Element)

/-- What a sequence holds at a position. -/
inductive Element where
  | plain (v : Json)
  | model (m : Model)
end

instance : Inhabited FieldValue := ⟨.plain .null⟩
instance : Inhabited Element := ⟨.plain .null⟩

mutual
def Model.toJson : Model → Json
  | ⟨type, values⟩ => .obj (snapshot type.fields values)

/-- Names and values of the set fields, in the order of declaration. -/
def snapshot : List Field → List (Option FieldValue) → List (String × Json)
  | field :: fields, some v :: values => (field.name, v.toJson) :: snapshot fields values
  | _ :: fields, none :: values => snapshot fields values
  | _, _ => []

/-- The JSON value that a field's content stands for. -/
def FieldValue.toJson : FieldValue → Json
  | .plain v => v
  | .model m => m.toJson
  | .sequence s => s.toJson

/-- The array of the elements, with nulls for the holes. -/
def Sequence.toJson : Sequence → Json
  | ⟨_, items⟩ => .arr (listing items)

/-- The elements, with nulls for the holes. -/
def listing : List (Option Element) → List Json
  | [] => []
  | some e :: items => e.toJson :: listing items
  | none :: items => .null :: listing items

def Element.toJson : Element → Json
  | .plain v => v
  | .model m => m.toJson
end

mutual
def Model.identical : Model → Model → Bool
  | ⟨type, values⟩, ⟨type', values'⟩ => type.same type' && identicalValues values values'

/-- Fields are unset in both, or equal in both. -/
def identicalValues : List (Option FieldValue) → List (Option FieldValue) → Bool
  | [], [] => true
  | none :: vs, none :: ws => identicalValues vs ws
  | some v :: vs, some w :: ws => v.identical w && identicalValues vs ws
  | _, _ => false

def FieldValue.identical : FieldValue → FieldValue → Bool
  | .plain v, .plain w => v.identical w
  | .model m, .model n => m.identical n
  | .sequence s, .sequence t => s.identical t
  | _, _ => false

/-- Same type, and equal elements and holes. -/
def Sequence.identical : Sequence → Sequence → Bool
  | ⟨type, items⟩, ⟨type', items'⟩ => type.same type' && identicalElements items items'

/-- Positions are holes in both, or equal in both. -/
def identicalElements : List (Option Element) → List (Option Element) → Bool
  | [], [] => true
  | none :: as, none :: bs => identicalElements as bs
  | some a :: as, some b :: bs => a.identical b && identicalElements as bs
  | _, _ => false

def Element.identical : Element → Element → Bool
  | .plain v, .plain w => v.identical w
  | .model m, .model n => m.identical n
  | _, _ => false
end

namespace Model

/-- The set fields in the order of declaration. -/
def fields (m : Model) : List (String × FieldValue) :=
  (m.type.fields.zip m.values).filterMap fun (field, value) => value.map (field.name, ·)

def get? (m : Model) (name : String) : Option FieldValue :=
  (m.type.slot? name).bind fun slot => m.values[slot]?.join

def value? (m : Model) (name : String) : Option Json := (m.get? name).map FieldValue.toJson

def contains (m : Model) (name : String) : Bool := (m.get? name).isSome

/-- The nested instance in a field. -/
def model? (m : Model) (name : String) : Option Model :=
  match m.get? name with
  | some (.model nested) => some nested
  | _ => none

def sequence? (m : Model) (name : String) : Option Sequence :=
  match m.get? name with
  | some (.sequence nested) => some nested
  | _ => none

def size (m : Model) : Nat := m.values.countP Option.isSome

def pointer? (m : Model) (pointer : String) : Option Json := m.toJson.pointer? pointer

/-- The fields as integers by name, if every value is one within 64 bits. -/
def integers? (m : Model) : Option (List (String × Int)) :=
  m.fields.mapM fun (name, value) =>
    match value.toJson with
    | .num (.int n) => if n ≤ 0x7fffffffffffffff then some (name, n) else none
    | _ => none

end Model

namespace Sequence

/-- The element at a position; nothing at holes and past the end. -/
def get? (s : Sequence) (i : Nat) : Option Element := s.items[i]?.join

/-- How many positions there are, holes included. -/
def size (s : Sequence) : Nat := s.items.length

end Sequence
end SchemaBound
