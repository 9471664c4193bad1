import SchemaBound.Check.Evaluation
import SchemaBound.Coercion
import SchemaBound.Schema.Requirement
import SchemaBound.Error
import SchemaBound.Options

/-! Engines that check values against schema nodes, and the one for Draft 7. -/
namespace SchemaBound

/-- Checks a value. An accepted value comes back in canonical form, which differs from it only where the
options allow conversion. -/
abbrev Validator := Options → Json → Except (List Violation) Json

/-- Makes a validator of a schema node that stands alone. -/
abbrev Engine := Json → Except SchemaError Validator

namespace Engine

/-- Refuses documents that are no schemas. -/
def inspect (node : Json) : Except SchemaError Unit :=
  match refusal? node with
  | some cause => .error (.engine "#" cause.message)
  | none => .ok ()

/-- Checks by `judge`, after conversion if that is allowed. Members may be missing when the schema
without its requirements is the one to meet. -/
def validatorBy (judge : Json → Json → List Violation) (node : Json) : Validator := fun options v =>
  let candidate := if options.coerce then Coercion.coerce node v else v
  let document := if options.allowMissing then Requirement.strip node else node
  match judge document candidate with
  | [] => .ok candidate
  | violations => .error violations

/-- Checks by the rules of Draft 7. -/
def validator : Json → Validator :=
  validatorBy fun document v => (check document v).map (·.toViolation)

/-- The engine for Draft 7. Both forms of a node, with and without its requirements, have to be
schemas. -/
def draft7 : Engine := fun node => do
  inspect node
  inspect (Requirement.strip node)
  return validator node

end Engine
end SchemaBound
