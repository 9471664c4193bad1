import SchemaBound.Json.Basic

/-! Which members of a schema hold further schemas. -/
namespace SchemaBound

/-- How the value of a keyword holds schemas. -/
inductive Nesting where
  /-- An object whose members are schemas. -/
  | byName
  /-- A list of schemas, or one schema. -/
  | listOrOne
  | one
  /-- An object whose members are schemas or lists of names. -/
  | dependencies
  /-- No schemas. -/
  | data
deriving DecidableEq

def Nesting.ofKeyword (keyword : String) : Nesting :=
  if keyword ∈ ["properties", "patternProperties", "definitions", "$defs"] then .byName
  else if keyword ∈ ["items", "allOf", "anyOf", "oneOf", "prefixItems"] then .listOrOne
  else if keyword ∈ ["additionalProperties", "additionalItems", "contains", "not", "if", "then", "else",
      "propertyNames"] then .one
  else if keyword = "dependencies" then .dependencies
  else .data

end SchemaBound
