import SchemaBound.Blueprint.Place

/-! Which shape of value a schema node describes. -/
namespace SchemaBound

namespace Shape

/-- How deep alternatives may be nested. -/
def maxUnionDepth : Nat := 32

def ofTypeName (pointer : String) : String → Except SchemaError Shape
  | "object" => .ok .object
  | "array" => .ok .array
  | name =>
    if name ∈ ["string", "number", "integer", "boolean", "null"] then .ok .scalar
    else .error (.unknownType pointer name)

def ofTypeNames (pointer : String) (names : List Json) : Except SchemaError Shape := do
  let shapes ← names.mapM fun
    | .str name => ofTypeName pointer name
    | _ => .error (.notASchema pointer .typeListEntry)
  match shapes with
  | [single] => return single
  | _ => return .union

/-- The keyword that lists the alternatives of a node, and its value. -/
def alternatives? (members : List (String × Json)) : Option (String × Json) :=
  match members.lookup "anyOf" with
  | some value => some ("anyOf", value)
  | none => (members.lookup "oneOf").map ("oneOf", ·)

/-- The shape of a node that has neither a type nor alternatives. -/
def ofKeywords (members : List (String × Json)) : Shape :=
  if (members.lookup "properties").isSome then .object
  else if (members.lookup "items").isSome || (members.lookup "prefixItems").isSome then .array
  else .scalar

/-- The shape of a node that is no reference. All alternatives have to be sound, as deep as `depth`
allows. -/
def ofPlaceIn (document : Json) : (depth : Nat) → Place → Except SchemaError Shape
  | 0, place => .error (.cyclic place.pointer)
  | depth + 1, place =>
    match place.node with
    | .bool _ => .ok .scalar
    | .obj members =>
      match members.lookup "type" with
      | some (.str name) => ofTypeName place.pointer name
      | some (.arr names) => ofTypeNames place.pointer names
      | some other => .error (.notASchema place.pointer (.typeNotNames other.typeName))
      | none =>
        match alternatives? members with
        | none => .ok (ofKeywords members)
        | some (keyword, .arr items) => do
          for alternative in place.entries keyword items do
            let _ ← ofPlaceIn document depth (← alternative.resolve document)
          return .union
        | some (keyword, _) =>
          .error (.notASchema (place.pointer ++ "/" ++ keyword) (.alternativesNotAList keyword))
    | other => .error (.notASchema place.pointer (.notAnObject other.typeName))

/-- The shape of a node that is no reference. -/
def ofPlace (document : Json) (place : Place) : Except SchemaError Shape :=
  ofPlaceIn document (maxUnionDepth + 1) place

end Shape
end SchemaBound
