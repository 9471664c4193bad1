import SchemaBound.Json.Pointer
import SchemaBound.Error

/-! Where the nodes of a schema document are, and what its references stand for. -/
namespace SchemaBound

/-- A schema node with its pointer, which is written after a `#`. -/
structure Place where
  pointer : String
  node : Json

namespace Place

def root (document : Json) : Place := ⟨"#", document⟩

/-- How many places a chain of references may visit. -/
def maxHops : Nat := 32

/-- The place in the document that a reference names. -/
def target? (document : Json) (reference : String) : Option Place :=
  match reference.toList with
  | '#' :: fragment => do
    let fragment := String.ofList fragment
    return ⟨"#" ++ fragment, ← document.pointer? fragment⟩
  | _ => none

def resolveIn (document : Json) : Nat → Place → Except SchemaError Place
  | 0, place => .error (.cyclic place.pointer)
  | hops + 1, place =>
    match place.node.get? "$ref" with
    | none => .ok place
    | some (.str reference) =>
      match target? document reference with
      | some next => resolveIn document hops next
      | none => .error (.unresolvedRef place.pointer reference)
    | some _ => .error (.notASchema place.pointer .referenceNotText)

/-- The node that a place stands for, at its canonical pointer. -/
def resolve (document : Json) (place : Place) : Except SchemaError Place :=
  resolveIn document maxHops place

def entries (place : Place) (keyword : String) (items : List Json) : List Place :=
  items.zipIdx.map fun (item, i) => ⟨place.pointer ++ "/" ++ keyword ++ "/" ++ toString i, item⟩

end Place
end SchemaBound
