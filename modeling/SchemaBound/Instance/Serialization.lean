import SchemaBound.Instance.Basic
import SchemaBound.Json.Printer

/-! Compact JSON text of instances, written without making their JSON values first. -/
namespace SchemaBound

mutual
/-- The set fields in the order of declaration. -/
def Model.serialize : Model → String
  | ⟨type, values⟩ => "\x7b" ++ ",".intercalate (serializeFields type.fields values) ++ "\x7d"

def serializeFields : List Field → List (Option FieldValue) → List String
  | field :: fields, some v :: values =>
    (Json.quote field.name ++ ":" ++ v.serialize) :: serializeFields fields values
  | _ :: fields, none :: values => serializeFields fields values
  | _, _ => []

def FieldValue.serialize : FieldValue → String
  | .plain v => v.compact
  | .model m => m.serialize
  | .sequence s => s.serialize

/-- The elements in order, null for a hole. -/
def Sequence.serialize : Sequence → String
  | ⟨_, items⟩ => "[" ++ ",".intercalate (serializeElements items) ++ "]"

def serializeElements : List (Option Element) → List String
  | [] => []
  | some e :: items => e.serialize :: serializeElements items
  | none :: items => "null" :: serializeElements items

def Element.serialize : Element → String
  | .plain v => v.compact
  | .model m => m.serialize
end

end SchemaBound
