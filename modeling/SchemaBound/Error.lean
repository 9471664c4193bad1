import SchemaBound.Violation

/-! What can be wrong with a schema, a value or a request, and how it is worded. -/
namespace SchemaBound

/-- What a schema node describes, as far as holding its values goes. -/
inductive Shape where
  | scalar
  | object
  | array
  /-- Several alternative shapes. -/
  | union
deriving DecidableEq

def Shape.word : Shape → String
  | .scalar => "scalar"
  | .object => "object"
  | .array => "array"
  | .union => "union"

/-- Why a JSON value is no schema node. -/
inductive NodeFault where
  | notAnObject (found : String)
  | referenceNotText
  | typeNotNames (found : String)
  | typeListEntry
  | alternativesNotAList (keyword : String)
  | propertiesNotAMapping
deriving DecidableEq

def NodeFault.message : NodeFault → String
  | .notAnObject found => "expected a schema object, found " ++ found
  | .referenceNotText => "$ref must be a string"
  | .typeNotNames found => "type must be a name or a list of names, found " ++ found
  | .typeListEntry => "type lists may only contain names"
  | .alternativesNotAList keyword => keyword ++ " must be a list of schemas"
  | .propertiesNotAMapping => "properties must map field names to schemas"

/-- Why a schema document cannot be compiled. Paths are pointers into the document after a `#`. -/
inductive SchemaError where
  | notASchema (path : String) (fault : NodeFault)
  | unknownType (path : String) (name : String)
  | unexpectedRoot (expected found : Shape)
  | mixedArrayModels (path : String)
  | multipleArrayModels (path : String)
  | unresolvedRef (path : String) (reference : String)
  | cyclic (path : String)
  | engine (path : String) (reason : String)
deriving DecidableEq

/-- The wording of a schema error, with the place first or last. -/
def SchemaError.message : SchemaError → String
  | .notASchema path fault => "not a schema at " ++ path ++ ": " ++ fault.message
  | .unknownType path name => "unknown type '" ++ name ++ "' at " ++ path
  | .unexpectedRoot expected found =>
    "root schema must describe an " ++ expected.word ++ ", found " ++ found.word
  | .mixedArrayModels path =>
    "mixing object models with other types is not supported (array at " ++ path ++ ")"
  | .multipleArrayModels path => "only one object model per array is supported (array at " ++ path ++ ")"
  | .unresolvedRef path reference => "unresolved reference '" ++ reference ++ "' at " ++ path
  | .cyclic path => "cyclic schema: " ++ path ++ " is reached again while it is being compiled"
  | .engine path reason => "engine rejected schema at " ++ path ++ ": " ++ reason

/-- Why a pointer addresses nothing that can be written. -/
inductive PointerFault where
  | noLeadingSlash
  | namesNoField
  | namesNoElement
  | leadingZeros
  | notAnIndex (token : String)
  | noNestedValue (field : String)
  | noSuchElement
  | elementNotAModel (index : Nat)
deriving DecidableEq

def PointerFault.message : PointerFault → String
  | .noLeadingSlash => "a pointer must start with '/'"
  | .namesNoField => "the pointer must name a field"
  | .namesNoElement => "the pointer must name an element"
  | .leadingZeros => "array indexes must not have leading zeros"
  | .notAnIndex token => "'" ++ token ++ "' is not an array index"
  | .noNestedValue field => "field '" ++ field ++ "' holds no nested value"
  | .noSuchElement => "no element at that index"
  | .elementNotAModel index => "element " ++ toString index ++ " is not a model instance"

/-- Why an operation on instances failed. -/
inductive Error where
  | schema (cause : SchemaError)
  | validation (violations : List Violation)
  /-- The schema declares no such field. -/
  | unknownField (name : String)
  | notAModel (name : String)
  | notASequence (name : String)
  | notAnObject (found : String)
  /-- The sequence cannot grow that far. -/
  | indexOutOfRange (index length : Nat)
  | invalidPointer (pointer : String) (fault : PointerFault)
  /-- The data does not have the form of the requested type. -/
  | typeMismatch
  /-- A program asks for a value that is not there. -/
  | nothingThere
deriving DecidableEq

namespace Error

def message : Error → String
  | .schema cause => "schema error: " ++ cause.message
  | .validation violations => "validation error: " ++ Violation.report violations
  | .unknownField name => "unknown field: " ++ name
  | .notAModel name => "field '" ++ name ++ "' does not hold a model instance"
  | .notASequence name => "field '" ++ name ++ "' does not hold a sequence"
  | .notAnObject found => "expected an object, found " ++ found
  | .indexOutOfRange index length =>
    "index " ++ toString index ++ " is out of range for a sequence of length " ++ toString length
  | .invalidPointer pointer fault => "invalid pointer '" ++ pointer ++ "': " ++ fault.message
  | .typeMismatch => "json error: invalid type"
  | .nothingThere => "input"

/-- The error of a nested value, seen from the value that holds it at `outer`. Only violations speak
of positions. -/
def under (outer : String) : Error → Error
  | .validation violations => .validation (violations.map (·.under outer))
  | e => e

end Error
end SchemaBound
