import SchemaBound.Check.Draft

/-! The types of values that a schema can name. -/
namespace SchemaBound

/-- The types, in alphabetical order. -/
inductive TypeName where
  | array
  | boolean
  | integer
  | null
  | number
  | object
  | string
deriving DecidableEq

namespace TypeName

/-- All types, in the order in which messages list them. -/
def all : List TypeName := [.array, .boolean, .integer, .null, .number, .object, .string]

def word : TypeName → String
  | .array => "array"
  | .boolean => "boolean"
  | .integer => "integer"
  | .null => "null"
  | .number => "number"
  | .object => "object"
  | .string => "string"

def ofWord? (word : String) : Option TypeName := all.find? (·.word = word)

/-- The number counts as an integer. Doubles without a fraction do since Draft 6. -/
def isInteger (draft : Draft) : Number → Bool
  | .int _ => true
  | .float x => draft ≠ .four && x.isWhole

def admits (draft : Draft) : TypeName → Json → Bool
  | .array, .arr _ => true
  | .boolean, .bool _ => true
  | .integer, .num n => isInteger draft n
  | .null, .null => true
  | .number, .num _ => true
  | .object, .obj _ => true
  | .string, .str _ => true
  | _, _ => false

end TypeName
end SchemaBound
