import SchemaBound.Json.Basic

/-! Options of a validation, and their JSON form. -/
namespace SchemaBound

/-- What a check may do beyond comparing a value with its schema. -/
structure Options where
  /-- Strings may be converted into the type that the schema declares for them. -/
  coerce : Bool
  /-- Required members may be absent. -/
  allowMissing : Bool
deriving DecidableEq, Inhabited

namespace Options

/-- Neither conversion nor missing members. -/
def strict : Options := ⟨false, false⟩

/-- Conversion, but no missing members. -/
def coercing : Options := ⟨true, false⟩

def toJson (o : Options) : Json :=
  .obj [("coerce", .bool o.coerce), ("partial", .bool o.allowMissing)]

def flag? : Option Json → Option Bool
  | none => some false
  | some (.bool b) => some b
  | some _ => none

/-- Reads an object, whose other members do not matter, or an array of at most two flags. -/
def ofJson? : Json → Option Options
  | .obj members => do
    return ⟨← flag? (members.lookup "coerce"), ← flag? (members.lookup "partial")⟩
  | .arr items =>
    if items.length ≤ 2 then do return ⟨← flag? items[0]?, ← flag? items[1]?⟩ else none
  | _ => none

end Options
end SchemaBound
