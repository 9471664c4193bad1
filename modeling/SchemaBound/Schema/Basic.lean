import SchemaBound.Schema.Requirement
import SchemaBound.Error

/-! Normalised schema documents, read from a document or from a mapping of fields to rules. -/
namespace SchemaBound

/-- A schema document whose required fields are listed, not flagged one by one. -/
structure Schema where
  document : Json
deriving DecidableEq

namespace Schema

/-- Keys that mark a whole document when their value has the form of one there. -/
def markers : List String := ["$schema", "$id", "$ref", "definitions", "$defs"]

/-- Keywords that may stand beside `properties` in a document without `type`. -/
def objectKeywords : List String :=
  ["properties", "required", "additionalProperties", "patternProperties", "dependencies", "title",
    "description", "allOf", "anyOf", "oneOf", "if", "then", "else", "minProperties", "maxProperties"]

/-- The value that a marker has in a document; a rule for a field of that name is an object of
keywords. -/
def isMarkerValue (key : String) (value : Json) : Bool :=
  if key = "definitions" ∨ key = "$defs" then
    match value with
    | .obj definitions => definitions.all fun d => d.2.isObject || d.2.isBool
    | _ => false
  else value.isText

/-- The members read as a schema document and not as fields. -/
def looksLikeDocument (members : List (String × Json)) : Bool :=
  (match members.lookup "type" with
    | some type => type.isText || type.isArray
    | none => false) ||
  markers.any (fun key => match members.lookup key with
    | some value => isMarkerValue key value
    | none => false) ||
  ((match members.lookup "properties" with
    | some rules => rules.isObject
    | none => false) && members.all fun member => member.1 ∈ objectKeywords)

def ofDocument (document : Json) : Except SchemaError Schema :=
  if document.isObject then .ok ⟨Requirement.hoist document⟩
  else .error (.notASchema "#" (.notAnObject document.typeName))

def ofFields (fields : List (String × Json)) : Schema :=
  ⟨Requirement.hoist (.obj [("type", .str "object"), ("properties", .obj fields)])⟩

/-- Takes either a schema document or a mapping of field names to rules. -/
def parse : Json → Except SchemaError Schema
  | .obj members => if looksLikeDocument members then ofDocument (.obj members) else .ok (ofFields members)
  | v => .error (.notASchema "#" (.notAnObject v.typeName))

end Schema
end SchemaBound
