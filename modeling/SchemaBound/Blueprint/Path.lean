import SchemaBound.Instance.Construction

/-! Compiled types inside others, reached by field names. -/
namespace SchemaBound

/-- A compiled type of either sort. -/
inductive Blueprint where
  | model (type : ModelType)
  | sequence (type : SequenceType)

/-- An instance of either sort. -/
inductive Instance where
  | model (m : Model)
  | sequence (s : Sequence)

namespace Blueprint

/-- The name that stands for the element type of a sequence type. -/
def elementName : String := "*"

/-- The type of a declared field that holds instances. -/
def ofField? (type : ModelType) (name : String) : Option Blueprint :=
  match (type.field? name).map Field.kind with
  | some (.object type) => some (.model type)
  | some (.array type) => some (.sequence type)
  | _ => none

/-- The type that a list of field names leads to. A name leads from a sequence type to its element type
first. -/
def follow? : Blueprint → List String → Option Blueprint
  | type, [] => some type
  | .model type, name :: rest => (ofField? type name).bind (follow? · rest)
  | .sequence type, name :: rest =>
    type.element.bind fun element =>
      if name = elementName then follow? (.model element) rest
      else (ofField? element name).bind (follow? · rest)

/-- An instance made of a value. A sequence type takes anything but an array for no items. -/
def create : Blueprint → Json → Except Error Instance
  | .model type, v => (type.create v).map .model
  | .sequence type, v => (type.create (v.items?.getD [])).map .sequence

end Blueprint

namespace Instance

def toJson : Instance → Json
  | .model m => m.toJson
  | .sequence s => s.toJson

def toFieldValue : Instance → FieldValue
  | .model m => .model m
  | .sequence s => .sequence s

end Instance
end SchemaBound
