import SchemaBound.Instance.Basic
import SchemaBound.Text.Quoted

/-! Outlines of types and instances, for people who look into them. -/
namespace SchemaBound

private def inBraces (entries : List String) : String := "\x7b" ++ ", ".intercalate entries ++ "\x7d"

private def inBrackets (entries : List String) : String := "[" ++ ", ".intercalate entries ++ "]"

mutual
def Json.outline : Json → String
  | .null => "Null"
  | .bool true => "Bool(true)"
  | .bool false => "Bool(false)"
  | .num n => "Number(" ++ n.toText ++ ")"
  | .str s => "String(" ++ Text.quoted s ++ ")"
  | .arr items => "Array " ++ inBrackets (Json.outlineItems items)
  | .obj members => "Object " ++ inBraces (Json.outlineMembers members)

def Json.outlineItems : List Json → List String
  | [] => []
  | v :: rest => v.outline :: Json.outlineItems rest

/-- One entry for each member, under its quoted name. -/
def Json.outlineMembers : List (String × Json) → List String
  | [] => []
  | (k, v) :: rest => (Text.quoted k ++ ": " ++ v.outline) :: Json.outlineMembers rest
end

mutual
def Model.outline : Model → String
  | ⟨type, values⟩ => inBraces (outlineFields type.fields values)

/-- One entry for each set field, under its quoted name. -/
def outlineFields : List Field → List (Option FieldValue) → List String
  | field :: fields, some v :: values =>
    (Text.quoted field.name ++ ": " ++ v.outline) :: outlineFields fields values
  | _ :: fields, none :: values => outlineFields fields values
  | _, _ => []

/-- How a field's content is held, and its outline. -/
def FieldValue.outline : FieldValue → String
  | .plain v => "Value(" ++ v.outline ++ ")"
  | .model m => "Model(" ++ m.outline ++ ")"
  | .sequence s => "Sequence(" ++ s.outline ++ ")"

/-- The elements and holes. -/
def Sequence.outline : Sequence → String
  | ⟨_, items⟩ => inBrackets (outlineElements items)

def outlineElements : List (Option Element) → List String
  | [] => []
  | some e :: items => ("Some(" ++ e.outline ++ ")") :: outlineElements items
  | none :: items => "None" :: outlineElements items

def Element.outline : Element → String
  | .plain v => "Value(" ++ v.outline ++ ")"
  | .model m => "Model(" ++ m.outline ++ ")"
end

/-- The type's place and the names of its fields. -/
def ModelType.outline (type : ModelType) : String :=
  "ModelType \x7b pointer: " ++ Text.quoted type.id.pointer ++ ", fields: " ++
    inBrackets (type.fields.map fun field => Text.quoted field.name) ++ " \x7d"

/-- The type's place and that of its element type. -/
def SequenceType.outline (type : SequenceType) : String :=
  let element := match type.element with
    | some element => "Some(" ++ Text.quoted element.id.pointer ++ ")"
    | none => "None"
  "SequenceType \x7b pointer: " ++ Text.quoted type.id.pointer ++ ", element: " ++ element ++ " \x7d"

end SchemaBound
