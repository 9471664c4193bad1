import SchemaBound.Check.TypeName
import SchemaBound.Json.Printer
import SchemaBound.Text.Utf8
import SchemaBound.Url.Basic

/-! Why a value breaks a rule, or why a schema cannot be read or reached, and how that is said. -/
namespace SchemaBound

/-- Sizes that a keyword can bound. -/
inductive Measure where
  | characters
  | items
  | properties
deriving DecidableEq

/-- The side of a bound. -/
inductive Bound where
  | least
  | greatest
deriving DecidableEq

/-- A reason for a finding. Those about a value hold the value. -/
inductive Cause where
  | falseSchema (value : Json)
  | type (value : Json) (name : TypeName)
  | types (value : Json) (names : List TypeName)
  | enum (value : Json) (options : List Json)
  | const (expected : Json)
  | limit (value : Json) (side : Bound) (exclusive : Bool) (bound : Number)
  | multipleOf (value : Json) (factor : Number)
  | size (value : Json) (measure : Measure) (side : Bound) (bound : Nat)
  | notUnique (value : Json)
  | contains (value : Json)
  | required (name : String)
  | pattern (value : Json) (source : String)
  /-- Whether a text matches was not found out. -/
  | searchGivenUp
  | format (value : Json) (name : String)
  | contentEncoding (value : Json) (name : String)
  | contentMediaType (value : Json) (name : String)
  | noAlternative (value : Json) (keyword : String)
  | manyAlternatives (value : Json)
  | not (value : Json) (source : Json)
  | furtherItems (items : List Json)
  | furtherMembers (names : List String)
  /-- Bytes that are no text. -/
  | utf8 (fault : Text.Utf8.Fault)
  /-- A name that is no URL. -/
  | url (fault : Url.Fault)
  /-- A part of a schema that no keyword can work with. -/
  | misshapen
  /-- The document has nothing at this place. -/
  | invalidReference (place : String)
  /-- The document cannot be had. -/
  | unavailable (document : String) (why : String)
  /-- References lead back to themselves without going deeper into the value. -/
  | endless (place : String)

namespace Cause

/-- Texts with commas between them. -/
private def listed (texts : List String) : String := ", ".intercalate texts

private def were (count : Nat) : String := if count = 1 then "was" else "were"

/-- The noun of a measure that goes with a bound. -/
private def unit (measure : Measure) (bound : Nat) : String :=
  match measure with
  | .characters => if bound = 1 then "character" else "characters"
  | .items => if bound = 1 then "item" else "items"
  | .properties => if bound = 1 then "property" else "properties"

private def sizeRelation (measure : Measure) (side : Bound) : String :=
  match measure, side with
  | .characters, .least => "is shorter than"
  | .characters, .greatest => "is longer than"
  | _, .least => "has less than"
  | _, .greatest => "has more than"

private def limitRelation (side : Bound) (exclusive : Bool) : String :=
  match side, exclusive with
  | .least, false => "is less than the minimum of"
  | .greatest, false => "is greater than the maximum of"
  | .least, true => "is less than or equal to the minimum of"
  | .greatest, true => "is greater than or equal to the maximum of"

/-- The wording of a cause, with values as compact JSON. -/
def message : Cause → String
  | .falseSchema v => "False schema does not allow " ++ v.compact
  | .type v name => v.compact ++ " is not of type \"" ++ name.word ++ "\""
  | .types v names =>
    v.compact ++ " is not of types " ++ listed (names.map fun t => "\"" ++ t.word ++ "\"")
  | .enum v options => v.compact ++ " is not one of " ++ (Json.arr options).compact
  | .const expected => expected.compact ++ " was expected"
  | .limit v side exclusive bound => v.compact ++ " " ++ limitRelation side exclusive ++ " " ++ bound.toText
  | .multipleOf v factor => v.compact ++ " is not a multiple of " ++ factor.toBinary64.toPlainText
  | .size v measure side bound =>
    v.compact ++ " " ++ sizeRelation measure side ++ " " ++ toString bound ++ " " ++ unit measure bound
  | .notUnique v => v.compact ++ " has non-unique elements"
  | .contains v => "None of " ++ v.compact ++ " are valid under the given schema"
  | .required name => Json.quote name ++ " is a required property"
  | .pattern v source => v.compact ++ " does not match \"" ++ source ++ "\""
  | .searchGivenUp => "Error executing regex: Max limit for backtracking count exceeded"
  | .format v name => v.compact ++ " is not a \"" ++ name ++ "\""
  | .contentEncoding v name => v.compact ++ " is not compliant with \"" ++ name ++ "\" content encoding"
  | .contentMediaType v name => v.compact ++ " is not compliant with \"" ++ name ++ "\" media type"
  | .noAlternative v keyword =>
    v.compact ++ " is not valid under any of the schemas listed in the '" ++ keyword ++ "' keyword"
  | .manyAlternatives v =>
    v.compact ++ " is valid under more than one of the schemas listed in the 'oneOf' keyword"
  | .not v source => source.compact ++ " is not allowed for " ++ v.compact
  | .furtherItems items =>
    "Additional items are not allowed (" ++ listed (items.map Json.compact) ++ " " ++ were items.length ++
      " unexpected)"
  | .furtherMembers names =>
    "Additional properties are not allowed (" ++ listed (names.map fun name => "'" ++ name ++ "'") ++ " " ++
      were names.length ++ " unexpected)"
  | .utf8 fault => fault.message
  | .url fault => fault.message
  | .misshapen => "Schema error"
  | .invalidReference place => "Invalid reference: " ++ place
  | .unavailable document why => "failed to resolve " ++ document ++ ": " ++ why
  | .endless place => "endless reference: " ++ place

end Cause
end SchemaBound
