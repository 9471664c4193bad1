import SchemaBound.Check.Cause
import SchemaBound.Json.Pointer
import SchemaBound.Violation

/-! What a check finds: a place, a keyword and a cause. -/
namespace SchemaBound

/-- Where a finding is. -/
inductive Position where
  /-- In the part of the checked value at these tokens. -/
  | inValue (tokens : List String)
  /-- At these tokens, whatever the value. -/
  | fixed (tokens : List String)
deriving DecidableEq

namespace Position

/-- The position, seen from the container that holds the checked value at `token`. -/
def under (token : String) : Position → Position
  | .inValue tokens => .inValue (token :: tokens)
  | p => p

def tokens : Position → List String
  | .inValue tokens | .fixed tokens => tokens

end Position

/-- A result of checking a value. A finding without a keyword takes the one of the first reference on the way
to it that has one. -/
structure Finding where
  position : Position
  keyword : Option String
  cause : Cause

namespace Finding

/-- The checked value breaks the rule of a keyword. -/
def fault (keyword : String) (cause : Cause) : Finding := ⟨.inValue [], some keyword, cause⟩

/-- The schema itself is at fault, at a place in it. -/
def misread (place : List String) (cause : Cause) : Finding := ⟨.fixed place, none, cause⟩

/-- The finding, seen from the container that holds the checked value at `token`. -/
def under (token : String) (f : Finding) : Finding := { f with position := f.position.under token }

/-- The finding at the container instead of the checked value. -/
def atContainer (f : Finding) : Finding := { f with position := .inValue [] }

/-- The finding, seen from a reference at this place of the schema. -/
def through (seat : Option String) (f : Finding) : Finding := { f with keyword := f.keyword <|> seat }

def message (f : Finding) : String := f.cause.message

def toViolation (f : Finding) : Violation :=
  let tokens := f.position.tokens
  ⟨if tokens = [] then Violation.wholeValue else Pointer.ofTokens tokens, f.keyword.getD "", f.message⟩

end Finding
end SchemaBound
