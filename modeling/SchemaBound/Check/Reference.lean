import SchemaBound.Check.MetaSchema
import SchemaBound.Check.Scope
import SchemaBound.Url.Escape

/-! References: the documents they can lead to, and the parts of these that they address. -/
namespace SchemaBound

namespace Json

mutual
/-- The parts of a schema that name a location for themselves, with their locations, in the order in which
they are met. Data under `enum` and `const` is no schema. -/
def locatedParts (draft : Draft) (base : Url) : Json → Except Url.Fault (List (String × Json))
  | .arr items => locatedItems draft base items
  | .obj members => do
    match draft.idOf? (.obj members) with
    | some id =>
      let location := (← base.join id).withoutEmptyFragment
      let parts ← locatedMembers draft location members
      return (location.toText, .obj members) :: parts
    | none => locatedMembers draft base members
  | _ => .ok []

def locatedItems (draft : Draft) (base : Url) : List Json → Except Url.Fault (List (String × Json))
  | [] => .ok []
  | v :: rest => do
    let parts ← locatedParts draft base v
    let others ← locatedItems draft base rest
    return parts ++ others

def locatedMembers (draft : Draft) (base : Url) :
    List (String × Json) → Except Url.Fault (List (String × Json))
  | [] => .ok []
  | (name, v) :: rest => do
    let parts ← if name = "enum" ∨ name = "const" then .ok [] else locatedParts draft base v
    let others ← locatedMembers draft base rest
    return parts ++ others
end

/-- The value at the end of a path, and the locations that the objects on the way name for themselves. -/
def followLocated? (draft : Draft) : Json → List String → Option (Json × List String)
  | v, [] => some (v, [])
  | v, token :: rest => do
    let next ← v.childAt? token
    let (target, ids) ← followLocated? draft next rest
    return (target, (draft.idOf? v).toList ++ ids)

end Json

/-- A schema document and what its references can reach by name. -/
structure Library where
  /-- The document. -/
  root : Json
  /-- Its location. -/
  location : Url
  /-- Parts with a location of their own, the last one first. -/
  located : List (String × Json)

namespace Library

/-- The library of a document. Its own location has to be complete; those of its parts are relative to it. -/
def ofDocument (draft : Draft) (document : Json) : Except Url.Fault Library := do
  let location ← match draft.idOf? document with
    | some id => Url.parse id
    | none => .ok .unnamed
  let parts ← document.locatedParts draft location
  return ⟨document, location, parts.reverse⟩

def size (library : Library) : Nat :=
  Draft.all.foldl (fun n draft => n + (MetaSchema.document draft).size) library.root.size

/-- Why a document that is not in the library cannot be had. No document is read from a disk or a network. -/
def absence (url : Url) : String :=
  if url.scheme = Url.unnamed.scheme then "cannot resolve relative external schema without root schema ID"
  else if url.scheme = "http" ∨ url.scheme = "https" then
    "error sending request for url (" ++ url.toText ++ ")"
  else if url.scheme = "file" then
    if (url.authority.map (·.host)).getD "" = "" then "No such file or directory (os error 2)"
    else "invalid file path"
  else "unknown scheme " ++ url.scheme

def document (library : Library) (url : Url) : Except Cause Json :=
  if url = .unnamed then .ok library.root
  else
    let name := url.toText
    match library.located.lookup name with
    | some v => .ok v
    | none =>
      match Draft.all.find? (·.location = name) with
      | some draft => .ok (MetaSchema.document draft)
      | none => .error (.unavailable name (absence url))

/-- The value that a reference addresses, and the location that references inside it are relative to. The
fragment is a pointer, unless the whole of the reference is the location of a part. -/
def resolve (library : Library) (draft : Draft) (url : Url) : Except Cause (Json × Url) := do
  let pointer ← (Text.Utf8.decode (Url.decodedBytes (url.fragment.getD "").toList)).mapError .utf8
  match library.located.lookup url.toText with
  | some v => return (v, url.document)
  | none =>
    let document ← library.document url.document
    if pointer = "" then return (document, url.document)
    else match (Pointer.tokens? pointer).bind (document.followLocated? draft) with
      | some (v, ids) =>
        match (ids.drop 1).foldlM Url.join url.document with
        | .ok base => return (v, base)
        | .error why => .error (.url why)
      | none => .error (.invalidReference url.toText)

end Library
end SchemaBound
