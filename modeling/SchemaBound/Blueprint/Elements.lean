import SchemaBound.Blueprint.Shape

/-! What the elements of an array may be, and which of them is an object. -/
namespace SchemaBound
namespace Elements

/-- More than the length of any chain of nested alternatives that does not come back to a place. -/
def nestingBound (document : Json) : Nat := (document.size + 1) * (document.size + 1)

/-- Lists of alternatives of a node without a type. -/
def alternatives? (node : Json) : Option (String × List Json) :=
  if (node.get? "type").isSome then none
  else match (node.get? "anyOf").bind Json.items? with
    | some items => some ("anyOf", items)
    | none => ((node.get? "oneOf").bind Json.items?).map ("oneOf", ·)

/-- The places that a place stands for, with its alternatives in the place of a list of them. -/
def expandIn (document : Json) : Nat → Place → Except SchemaError (List Place)
  | 0, place => .error (.cyclic place.pointer)
  | depth + 1, place => do
    let place ← place.resolve document
    match alternatives? place.node with
    | none => return [place]
    | some (keyword, items) =>
      return (← (place.entries keyword items).mapM (expandIn document depth)).flatten

def expand (document : Json) (place : Place) : Except SchemaError (List Place) :=
  expandIn document (nestingBound document) place

/-- The rules for elements that an array node states itself. -/
def stated (place : Place) : List Place :=
  (match place.node.get? "prefixItems" with
    | some (.arr items) => place.entries "prefixItems" items
    | _ => []) ++
  (match place.node.get? "items" with
    | some (.arr items) => place.entries "items" items
    | some item => [⟨place.pointer ++ "/items", item⟩]
    | none => [])

/-- The node admits nothing but null. -/
def isNullOnly (node : Json) : Bool :=
  match node.get? "type" with
  | some (.str name) => name = "null"
  | some (.arr names) => names ≠ [] && names.all (· = .str "null")
  | _ => false

/-- Adds a place that is not there yet. -/
def insertPlace (places : List Place) (place : Place) : List Place :=
  if places.any (·.pointer = place.pointer) then places else places ++ [place]

/-- The objects among the elements, each once, and whether something else than null is among them. -/
def survey (document : Json) (places : List Place) : Except SchemaError (List Place × Bool) :=
  places.foldlM (fun (objects, others) place => do
    match ← Shape.ofPlace document place with
    | .object => return (insertPlace objects place, others)
    | _ => return (objects, others || !isNullOnly place.node)) ([], false)

/-- The one object that the elements of an array node may be. -/
def object? (document : Json) (place : Place) : Except SchemaError (Option Place) := do
  let places ← (stated place).mapM (expand document)
  match ← survey document places.flatten with
  | ([], _) => return none
  | (_ :: _, true) => throw (.mixedArrayModels place.pointer)
  | ([object], false) => return some object
  | (_ :: _ :: _, false) => throw (.multipleArrayModels place.pointer)

end Elements
end SchemaBound
