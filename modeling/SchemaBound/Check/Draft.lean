import SchemaBound.Json.Basic

/-! Editions of the schema language. -/
namespace SchemaBound

/-- The editions that differ in what keywords mean. -/
inductive Draft where
  | four
  | six
  | seven
deriving DecidableEq

namespace Draft

def all : List Draft := [.four, .six, .seven]

/-- No edition after the other one. -/
def isUpTo : Draft → Draft → Bool
  | .four, _ | .six, .six | _, .seven => true
  | _, _ => false

def location : Draft → String
  | .four => "http://json-schema.org/draft-04/schema"
  | .six => "http://json-schema.org/draft-06/schema"
  | .seven => "http://json-schema.org/draft-07/schema"

/-- The edition that a schema names in `$schema`. Number signs at the end of the name do not count. -/
def named? (schema : Json) : Option Draft := do
  let name ← (← schema.get? "$schema").text?
  let place := String.ofList (name.toList.reverse.dropWhile (· = '#')).reverse
  all.find? (·.location = place)

/-- The keyword that gives a schema a location of its own. -/
def idKeyword : Draft → String
  | .four => "id"
  | _ => "$id"

def knows (draft : Draft) (keyword : String) : Bool :=
  match draft with
  | .four =>
    keyword ∉ ["const", "contains", "contentEncoding", "contentMediaType", "exclusiveMaximum",
      "exclusiveMinimum", "if", "propertyNames"]
  | .six => keyword ≠ "if"
  | .seven => true

def idOf? (draft : Draft) (v : Json) : Option String := (v.get? draft.idKeyword).bind Json.text?

end Draft
end SchemaBound
