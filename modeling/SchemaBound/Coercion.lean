import SchemaBound.Json.Pointer
import SchemaBound.Text.Blank

/-! Converting strings into the primitive types that a schema declares for them. -/
namespace SchemaBound.Coercion

/-- How deep the walk goes into a schema, and how many references in a row it follows. -/
def maxDepth : Nat := 64

/-- Names in the `type` of a node. -/
def declaredTypes (node : Json) : List String :=
  match node.get? "type" with
  | some (.str name) => [name]
  | some (.arr names) => names.filterMap Json.text?
  | _ => []

/-- A value is of the type of this name. -/
def hasType (name : String) : Json → Bool
  | .str _ => name = "string"
  | .num n => name = "number" || (name = "integer" && n.isWhole)
  | .bool _ => name = "boolean"
  | .null => name = "null"
  | .obj _ => name = "object"
  | .arr _ => name = "array"

/-- A value is of a declared type, if the node declares any. -/
def acceptsType (node v : Json) : Bool :=
  let types := declaredTypes node
  types.isEmpty || types.any (hasType · v)

/-- What a trimmed text means as a value of the type of this name. -/
def convert? (name : String) (text : List Char) : Option Json :=
  if name = "integer" then (Number.ofInteger? text).map .num
  else if name = "number" then ((Number.ofInteger? text).or (Number.ofDecimal? text)).map .num
  else if name = "boolean" then
    if text = ['t', 'r', 'u', 'e'] then some (.bool true)
    else if text = ['f', 'a', 'l', 's', 'e'] then some (.bool false)
    else none
  else none

/-- A string becomes a value of the first declared type that its text can mean, unless strings are
declared too. -/
def coercePrimitive (node v : Json) : Json :=
  match v with
  | .str s =>
    let types := declaredTypes node
    if types.isEmpty || types.contains "string" then v
    else (types.findSome? (convert? · (Text.trim s.toList))).getD v
  | v => v

/-- Follows references into the root document, at most `hops` in a row, to a node that is an object. -/
def resolve? (root : Json) : Nat → Json → Option Json
  | 0, _ => none
  | hops + 1, node =>
    match node.get? "$ref" with
    | some (.str reference) =>
      match reference.toList with
      | '#' :: fragment => (root.pointer? (String.ofList fragment)).bind (resolve? root hops)
      | _ => none
    | _ => if node.isObject then some node else none

/-- The node for a member of an object: the one declared under its name, or else the one for additional
members. -/
def memberNode? (node : Json) (name : String) : Option Json :=
  match (node.get? "properties").bind (·.get? name) with
  | some sub => some sub
  | none => (node.get? "additionalProperties").filter Json.isObject

/-- The node for the item at an index: by position where there is one, or else the one for further
items. -/
def itemNode? (node : Json) (index : Nat) : Option Json :=
  match (node.get? "prefixItems").bind Json.items? |>.bind (·[index]?) with
  | some sub => some sub
  | none =>
    match node.get? "items" with
    | some (.arr tuple) =>
      match tuple[index]? with
      | some sub => some sub
      | none => (node.get? "additionalItems").filter Json.isObject
    | some (.obj members) => some (.obj members)
    | _ => none

def listed (node : Json) (keyword : String) : List Json :=
  ((node.get? keyword).bind Json.items?).getD []

/-- An alternative whose declared type the value already has, or else the first one that accepts the
value after conversion. -/
def pick (resolve : Json → Option Json) (walk : Json → Json → Json) (v : Json) (alternatives : List Json) :
    Json :=
  let nodes := alternatives.filterMap resolve
  match nodes.find? (acceptsType · v) with
  | some node => walk node v
  | none =>
    match nodes.findSome? fun node =>
        let candidate := walk node v
        if acceptsType node candidate then some candidate else none with
    | some candidate => candidate
    | none => v

/-- Converts the items of an array by their position, from `index` on. -/
def walkItems (walk : Json → Json → Json) (node : Json) (index : Nat) : List Json → List Json
  | [] => []
  | v :: rest =>
    (match itemNode? node index with
      | some sub => walk sub v
      | none => v) :: walkItems walk node (index + 1) rest

/-- Converts the members of an object by their name. -/
def walkMembers (walk : Json → Json → Json) (node : Json) : List (String × Json) → List (String × Json)
  | [] => []
  | (name, v) :: rest =>
    (name, match memberNode? node name with
      | some sub => walk sub v
      | none => v) :: walkMembers walk node rest

def walkInside (walk : Json → Json → Json) (node : Json) : Json → Json
  | .arr items => .arr (walkItems walk node 0 items)
  | .obj members => .obj (walkMembers walk node members)
  | v => v

/-- Converts a value by a node: by the node itself, by all of `allOf`, by one of `anyOf` and of `oneOf`,
then inside a container. At most `depth` nodes deep. -/
def walk (root : Json) : Nat → Json → Json → Json
  | 0, _, v => v
  | depth + 1, node, v =>
    match resolve? root maxDepth node with
    | none => v
    | some node =>
      let v := coercePrimitive node v
      let v := (listed node "allOf").foldl (fun v sub => walk root depth sub v) v
      let alternatives (keyword : String) (v : Json) : Json :=
        pick (resolve? root maxDepth) (walk root depth) v (listed node keyword)
      walkInside (walk root depth) node (alternatives "oneOf" (alternatives "anyOf" v))

def coerce (document v : Json) : Json := walk document (maxDepth + 1) document v

end SchemaBound.Coercion
