import SchemaBound.Check.TypeName

/-! The schemas of schemas: what each draft lets a schema be. -/
namespace SchemaBound.MetaSchema

private def typed (name : TypeName) : Json := .obj [("type", .str name.word)]

private def formatted (format : String) : Json := .obj [("type", .str "string"), ("format", .str format)]

private def reference (target : String) : Json := .obj [("$ref", .str target)]

private def flag : Json := .obj [("type", .str "boolean"), ("default", .bool false)]

private def node : Json := reference "#"

private def nodeList : Json := reference "#/definitions/schemaArray"

private def names : Json := reference "#/definitions/stringArray"

private def simpleType : Json := reference "#/definitions/simpleTypes"

private def oneOrMore : Json := .num (.int 1)

/-- The name of the definition of sizes. Draft 4 calls them positive, zero included. -/
private def sizeName : Draft → String
  | .four => "positiveInteger"
  | _ => "nonNegativeInteger"

private def count (draft : Draft) : Json := reference ("#/definitions/" ++ sizeName draft)

private def countFromZero (draft : Draft) : Json :=
  reference ("#/definitions/" ++ sizeName draft ++ "Default0")

/-- The schema that admits all values, as a draft writes it. -/
private def anything : Draft → Json
  | .seven => .bool true
  | _ => .obj []

private def anyList (draft : Draft) : Json := .obj [("type", .str "array"), ("items", anything draft)]

/-- Options to choose from. Only Draft 6 asks for at least one of them and no two that are the same. -/
private def options : Draft → Json
  | .four => typed .array
  | .six => .obj [("type", .str "array"), ("minItems", oneOrMore), ("uniqueItems", .bool true)]
  | .seven => anyList .seven

/-- One schema for what is left over, which may be a boolean in all drafts. -/
private def remainder : Draft → Json
  | .four => .obj [("anyOf", .arr [typed .boolean, node]), ("default", .obj [])]
  | _ => node

private def nodesByName : Json :=
  .obj [("type", .str "object"), ("additionalProperties", node), ("default", .obj [])]

private def nodesByPattern : Draft → Json
  | .seven => .obj [
    ("type", .str "object"),
    ("additionalProperties", node),
    ("propertyNames", .obj [("format", .str "regex")]),
    ("default", .obj [])]
  | _ => nodesByName

private def dependencies : Json := .obj [
  ("type", .str "object"),
  ("additionalProperties", .obj [("anyOf", .arr [node, names])])]

private def items (draft : Draft) : Json :=
  .obj [("anyOf", .arr [node, nodeList]), ("default", anything draft)]

private def typeNames : Json := .obj [("anyOf", .arr [
  simpleType,
  .obj [
    ("type", .str "array"),
    ("items", simpleType),
    ("minItems", oneOrMore),
    ("uniqueItems", .bool true)]])]

def definitions (draft : Draft) : Json := .obj [
  ("schemaArray", .obj [("type", .str "array"), ("minItems", oneOrMore), ("items", node)]),
  (sizeName draft, .obj [("type", .str "integer"), ("minimum", .num (.int 0))]),
  (sizeName draft ++ "Default0",
    .obj [("allOf", .arr [count draft, .obj [("default", .num (.int 0))]])]),
  ("simpleTypes", .obj [("enum", .arr (TypeName.all.map fun t => .str t.word))]),
  ("stringArray", .obj ([("type", .str "array"), ("items", typed .string)] ++
    if draft = .four then [("minItems", oneOrMore), ("uniqueItems", .bool true)]
    else [("uniqueItems", .bool true), ("default", .arr [])]))]

private def descriptions : Draft → List (String × Json)
  | .four => [
    ("id", typed .string),
    ("$schema", typed .string),
    ("title", typed .string),
    ("description", typed .string),
    ("default", .obj [])]
  | .six => [
    ("$id", formatted "uri-reference"),
    ("$schema", formatted "uri"),
    ("$ref", formatted "uri-reference"),
    ("title", typed .string),
    ("description", typed .string),
    ("default", .obj []),
    ("examples", anyList .six)]
  | .seven => [
    ("$id", formatted "uri-reference"),
    ("$schema", formatted "uri"),
    ("$ref", formatted "uri-reference"),
    ("$comment", typed .string),
    ("title", typed .string),
    ("description", typed .string),
    ("default", .bool true),
    ("readOnly", flag),
    ("writeOnly", flag),
    ("examples", anyList .seven)]

/-- What bounds numbers. -/
private def limits : Draft → List (String × Json)
  | .four => [
    ("multipleOf",
      .obj [("type", .str "number"), ("minimum", .num (.int 0)), ("exclusiveMinimum", .bool true)]),
    ("maximum", typed .number),
    ("exclusiveMaximum", typed .boolean),
    ("minimum", typed .number),
    ("exclusiveMinimum", typed .boolean)]
  | _ => [
    ("multipleOf", .obj [("type", .str "number"), ("exclusiveMinimum", .num (.int 0))]),
    ("maximum", typed .number),
    ("exclusiveMaximum", typed .number),
    ("minimum", typed .number),
    ("exclusiveMinimum", typed .number)]

/-- A member that Draft 4 does not know. -/
private def sinceSix (draft : Draft) (name : String) (v : Json) : List (String × Json) :=
  if draft = .four then [] else [(name, v)]

/-- A member that only Draft 7 knows. -/
private def sinceSeven (draft : Draft) (name : String) (v : Json) : List (String × Json) :=
  if draft = .seven then [(name, v)] else []

/-- What each keyword of a schema may hold. The first broken rule in this order is the one reported. -/
def properties (draft : Draft) : Json := .obj <|
  descriptions draft ++ limits draft ++ [
    ("maxLength", count draft),
    ("minLength", countFromZero draft),
    ("pattern", formatted "regex"),
    ("additionalItems", remainder draft),
    ("items", items draft),
    ("maxItems", count draft),
    ("minItems", countFromZero draft),
    ("uniqueItems", flag)] ++
  sinceSix draft "contains" node ++ [
    ("maxProperties", count draft),
    ("minProperties", countFromZero draft),
    ("required", names),
    ("additionalProperties", remainder draft),
    ("definitions", nodesByName),
    ("properties", nodesByName),
    ("patternProperties", nodesByPattern draft),
    ("dependencies", dependencies)] ++
  sinceSix draft "propertyNames" node ++
  sinceSix draft "const" (anything draft) ++ [
    ("enum", options draft),
    ("type", typeNames),
    ("format", typed .string)] ++
  sinceSeven draft "contentMediaType" (typed .string) ++
  sinceSeven draft "contentEncoding" (typed .string) ++
  sinceSeven draft "if" node ++
  sinceSeven draft "then" node ++
  sinceSeven draft "else" node ++ [
    ("allOf", nodeList),
    ("anyOf", nodeList),
    ("oneOf", nodeList),
    ("not", node)]

/-- The rules of a draft, without the name of the document that holds them. -/
def rules : Draft → List (String × Json)
  | .four => [
    ("definitions", definitions .four),
    ("type", .str "object"),
    ("properties", properties .four),
    ("dependencies", .obj [
      ("exclusiveMaximum", .arr [.str "maximum"]),
      ("exclusiveMinimum", .arr [.str "minimum"])]),
    ("default", .obj [])]
  | draft => [
    ("definitions", definitions draft),
    ("type", .arr [.str "object", .str "boolean"]),
    ("properties", properties draft),
    ("default", anything draft)]

/-- The name and the title of the document of a draft. -/
private def heading (draft : Draft) : List (String × Json) :=
  let name : Json := .str (draft.location ++ "#")
  match draft with
  | .four => [("id", name), ("$schema", name), ("description", .str "Core schema meta-schema")]
  | _ => [("$schema", name), ("$id", name), ("title", .str "Core schema meta-schema")]

/-- The document at the location of a draft. -/
def document (draft : Draft) : Json := .obj (heading draft ++ rules draft)

end SchemaBound.MetaSchema
