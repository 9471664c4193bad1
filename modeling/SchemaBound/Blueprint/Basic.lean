import SchemaBound.Engine

/-! Compiled schemas: model types for objects and sequence types for arrays. -/
namespace SchemaBound

/-- Names a compiled type: the compilation that made it, and the place of its schema node. -/
structure TypeId where
  compilation : Nat
  /-- Pointer into the schema document after a `#`. -/
  pointer : String
deriving DecidableEq, Inhabited

mutual
/-- The compiled form of an object schema. -/
structure ModelType where
  id : TypeId
  title : Option String
  /-- Declared fields in the order of declaration. A field's slot is its position here. -/
  fields : List Field
  validator : Validator
  options : Options

/-- A declared field of a model type. -/
structure Field where
  name : String
  /-- Pointer to the field's schema node. -/
  pointer : String
  kind : FieldKind

/-- How the values of a field are held. -/
inductive FieldKind where
  | scalar
  /-- Several alternative shapes; values stay plain. -/
  | union
  | object (type : ModelType)
  | array (type : SequenceType)

/-- The compiled form of an array schema. -/
structure SequenceType where
  id : TypeId
  /-- Type of those elements that are objects. -/
  element : Option ModelType
  validator : Validator
  options : Options
end

instance : Inhabited FieldKind := ⟨.scalar⟩
instance : Inhabited Field := ⟨⟨default, default, default⟩⟩

/-- The shape that a kind of field comes from. -/
def FieldKind.shape : FieldKind → Shape
  | .scalar => .scalar
  | .union => .union
  | .object _ => .object
  | .array _ => .array

namespace ModelType

def same (a b : ModelType) : Bool := a.id = b.id

/-- The position of a field in the order of declaration. -/
def slot? (type : ModelType) (name : String) : Option Nat := type.fields.findIdx? (·.name = name)

def field? (type : ModelType) (name : String) : Option Field := type.fields.find? (·.name = name)

/-- The canonical form of an acceptable object. -/
def check (type : ModelType) (v : Json) : Except (List Violation) Json := type.validator type.options v

end ModelType

namespace SequenceType

def same (a b : SequenceType) : Bool := a.id = b.id

/-- The canonical form of an acceptable array. -/
def check (type : SequenceType) (v : Json) : Except (List Violation) Json :=
  type.validator type.options v

end SequenceType
end SchemaBound
