import SchemaBound.Engine
import SchemaBound.Proofs.Schema.Form
import SchemaBound.Proofs.Success

/-! Engines that convert values as the one for Draft 7 does, with any way to inspect documents and to judge values. -/
namespace SchemaBound.Engine
open Requirement (strip)

/-- Documents have to pass the inspection with and without their requirements. Values are checked by conversion and
judgement. -/
def inspecting (inspect : Json → Except SchemaError Unit) (judge : Json → Json → List Violation) : Engine :=
  fun node => do
    inspect node
    inspect (strip node)
    return validatorBy judge node

theorem draft7_eq_inspecting :
    draft7 = inspecting Engine.inspect fun document v => (check document v).map (·.toViolation) := rfl

variable {inspect : Json → Except SchemaError Unit} {judge : Json → Json → List Violation} {document : Json}
  {validator : Validator}

theorem inspecting_eq_ok_iff : inspecting inspect judge document = .ok validator ↔
    inspect document = .ok () ∧ inspect (strip document) = .ok () ∧ validator = validatorBy judge document := by
  constructor
  · intro h
    obtain ⟨_, hwhole, h⟩ := Success.bind_eq_ok.mp h
    obtain ⟨_, hstripped, h⟩ := Success.bind_eq_ok.mp h
    exact ⟨hwhole, hstripped, (Success.pure_eq_ok.mp h).symm⟩
  · rintro ⟨hwhole, hstripped, rfl⟩
    exact Success.bind_eq_ok.mpr ⟨(), hwhole, Success.bind_eq_ok.mpr ⟨(), hstripped, rfl⟩⟩

/-- The form that values are checked by passes the inspection. -/
theorem inspect_form (h : inspecting inspect judge document = .ok validator) (options : Options) :
    inspect (options.form document) = .ok () := by
  obtain ⟨hwhole, hstripped, _⟩ := inspecting_eq_ok_iff.mp h
  unfold Options.form
  split
  · exact hstripped
  · exact hwhole

/-- The validator accepts what the judge has nothing against after conversion, and answers with it. -/
theorem validatorBy_eq_ok_iff {options : Options} {v canonical : Json} :
    validatorBy judge document options v = .ok canonical ↔
      canonical = (if options.coerce then Coercion.coerce document v else v) ∧
        judge (options.form document) canonical = [] := by
  unfold validatorBy Options.form
  dsimp only
  generalize (if options.coerce then Coercion.coerce document v else v) = candidate
  split
  · rename_i hnone
    constructor
    · intro h
      obtain rfl := Except.ok.inj h
      exact ⟨rfl, hnone⟩
    · rintro ⟨rfl, _⟩
      rfl
  · rename_i hfound
    constructor
    · intro h
      cases h
    · rintro ⟨rfl, hnone⟩
      exact absurd hnone hfound

end SchemaBound.Engine
