import SchemaBound.Check.Finding
import SchemaBound.Url.Parser

/-! Where a schema stands while it is read. -/
namespace SchemaBound

/-- The location of a document that does not name its own. -/
def Url.unnamed : Url := ⟨"json-schema", some ⟨"", "", none⟩, .segments [""], none, none⟩

/-- What a reading depends on: the location that references are relative to, the draft, and the tokens that
lead from the document read to the part that is being read, the last one first. -/
structure Scope where
  base : Url
  draft : Draft
  place : List String

namespace Scope

/-- References in the scheme of documents without a location are relative to none. -/
def baseOf (location : Url) : Url := if location.scheme = Url.unnamed.scheme then Url.unnamed else location

def ofDocument (location : Url) (draft : Draft) : Scope := ⟨baseOf location, draft, []⟩

def under (scope : Scope) (token : String) : Scope := { scope with place := token :: scope.place }

def fault {α : Type} (scope : Scope) (cause : Cause) : Except Finding α :=
  .error (.misread scope.place.reverse cause)

def locate (scope : Scope) (reference : String) : Except Finding Url :=
  match scope.base.join reference with
  | .ok url => .ok url
  | .error why => .error (.misread [] (.url why))

/-- The scope inside a schema, which may have a location of its own. -/
def inside (scope : Scope) (schema : Json) : Except Finding Scope :=
  match scope.draft.idOf? schema with
  | some id => (scope.locate id).map fun location => { scope with base := baseOf location }
  | none => .ok scope

end Scope
end SchemaBound
