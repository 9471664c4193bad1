import SchemaBound.Json.Pointer

/-! Broken rules of a rejected value, and how they read inside an outer value. -/
namespace SchemaBound

/-- One broken rule. The path is a pointer to the offending value, `/` for the checked value itself. -/
structure Violation where
  path : String
  keyword : String
  message : String
deriving DecidableEq, Inhabited

namespace Violation

def wholeValue : String := "/"

def toText (v : Violation) : String := v.path ++ ": " ++ v.message

/-- The same violation, seen from the value that holds the checked one at `outer`. -/
def under (outer : String) (v : Violation) : Violation :=
  { v with path := if v.path = wholeValue then outer else outer ++ v.path }

def report : List Violation → String
  | [] => "validation failed"
  | vs => "\n".intercalate (vs.map toText)

end Violation
end SchemaBound
