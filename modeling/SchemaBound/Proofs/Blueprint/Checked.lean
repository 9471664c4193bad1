import SchemaBound.Proofs.Blueprint.Origins

/-! Compiled types whose nodes, at every depth, are checked by conversion and a judge, and that compilation
with such an engine makes them. -/
namespace SchemaBound

/-- An engine that converts values as the one for Draft 7 does, with any way to refuse nodes and to judge
values. -/
def Engine.judging (inspection : Json → Except SchemaError Unit) (judge : Json → Json → List Violation) :
    Engine := fun node => do
  inspection node
  return Engine.validatorBy judge node

/-- The engine for Draft 7 judges by the rules of Draft 7. -/
theorem Engine.draft7_eq_judging :
    Engine.draft7 = Engine.judging (fun node => do inspect node; inspect (Requirement.strip node))
      fun document v => (check document v).map (·.toViolation) := by
  funext node
  simp only [draft7, judging, validator, bind_assoc]

section Checked

variable (judge : Json → Json → List Violation) (options : Options)

/-- The check of a schema node by conversion and judgement. -/
def IsJudgedBy (validator : Validator) : Prop := ∃ node, validator = Engine.validatorBy judge node

mutual
/-- The type and all types in it are judged and have these options; no two fields share a name. -/
def ModelType.IsChecked : ModelType → Prop
  | ⟨_, _, fields, validator, options'⟩ =>
    options' = options ∧ IsJudgedBy judge validator ∧ (fields.map Field.name).Nodup ∧ fieldsAreChecked fields

/-- The types of all fields are judged. -/
def fieldsAreChecked : List Field → Prop
  | [] => True
  | field :: rest => field.IsChecked ∧ fieldsAreChecked rest

/-- The type of the field is judged. -/
def Field.IsChecked : Field → Prop
  | ⟨_, _, kind⟩ => kind.IsChecked

/-- The type of instances, if the kind holds instances, is judged. -/
def FieldKind.IsChecked : FieldKind → Prop
  | .object type => type.IsChecked
  | .array type => type.IsChecked
  | _ => True

/-- The type and the type of elements are judged and have these options. -/
def SequenceType.IsChecked : SequenceType → Prop
  | ⟨_, element, validator, options'⟩ =>
    options' = options ∧ IsJudgedBy judge validator ∧ elementIsChecked element

/-- The type of elements that are objects, if there is one, is judged. -/
def elementIsChecked : Option ModelType → Prop
  | none => True
  | some type => type.IsChecked
end

end Checked

variable {judge : Json → Json → List Violation} {options : Options}

theorem fieldsAreChecked_iff {fields : List Field} :
    fieldsAreChecked judge options fields ↔ ∀ field ∈ fields, field.kind.IsChecked judge options := by
  induction fields with
  | nil => simp [fieldsAreChecked]
  | cons field rest ih =>
    obtain ⟨name, pointer, kind⟩ := field
    rw [fieldsAreChecked, Field.IsChecked, List.forall_mem_cons, ih]

theorem ModelType.isChecked_iff {type : ModelType} :
    type.IsChecked judge options ↔ type.options = options ∧ IsJudgedBy judge type.validator ∧
      (type.fields.map Field.name).Nodup ∧ ∀ field ∈ type.fields, field.kind.IsChecked judge options := by
  obtain ⟨id, title, fields, validator, options'⟩ := type
  rw [IsChecked, fieldsAreChecked_iff]

theorem SequenceType.isChecked_iff {type : SequenceType} :
    type.IsChecked judge options ↔ type.options = options ∧ IsJudgedBy judge type.validator ∧
      elementIsChecked judge options type.element := by
  obtain ⟨id, element, validator, options'⟩ := type
  rw [IsChecked]

section Origins

variable {job : Compilation} {inspection : Json → Except SchemaError Unit}

theorem nodup_properties {place : Place} (hp : place.hasDistinctNames) {rules : List (String × Json)}
    (h : Compilation.properties place = .ok rules) : (rules.map (·.1)).Nodup := by
  unfold Compilation.properties at h
  split at h
  · obtain rfl := Except.ok.inj h
    exact List.nodup_nil
  · rename_i rules' hrules
    obtain rfl := Except.ok.inj h
    exact Json.nodup_names (Json.hasDistinctNames_get hp hrules)
  · cases h

theorem IsHanded.isJudgedBy (he : job.engine = Engine.judging inspection judge) {place : Place} {shape : Shape}
    {pointer : String} {validator : Validator} {options : Options}
    (h : IsHanded job place shape pointer validator options) :
    IsJudgedBy judge validator := by
  have hanswer := h.handed
  rw [he] at hanswer
  obtain ⟨_, _, hvalidator⟩ := Success.bind_eq_ok.mp hanswer
  exact ⟨_, (Success.pure_eq_ok.mp hvalidator).symm⟩

mutual
/-- Types that come from a document without repeated names, by an engine that judges, are checked. -/
theorem ModelType.IsFor.isChecked (hd : job.document.hasDistinctNames)
    (he : job.engine = Engine.judging inspection judge) :
    ∀ {type : ModelType} {place : Place}, type.IsFor job place → type.IsChecked judge job.options
  | ⟨_, _, fields, _, _⟩, place, h => by
    rw [ModelType.IsFor] at h
    obtain ⟨hhanded, rules, hrules, hfields⟩ := h
    have hnames : (fields.map Field.name).Nodup :=
      names_of_fieldsAreFor hfields ▸ nodup_properties (hhanded.reached.hasDistinctNames hd) hrules
    rw [ModelType.IsChecked]
    exact ⟨hhanded.options_eq, hhanded.isJudgedBy he, hnames, isChecked_of_fieldsAreFor hd he hfields⟩

theorem isChecked_of_fieldsAreFor (hd : job.document.hasDistinctNames)
    (he : job.engine = Engine.judging inspection judge) :
    ∀ {place : Place} {fields : List Field} {rules : List (String × Json)}, fieldsAreFor job place fields rules →
      fieldsAreChecked judge job.options fields
  | _, [], _, _ => trivial
  | _, field :: fields, [], h => h.elim
  | _, field :: fields, rule :: rules, h => by
    rw [fieldsAreFor] at h
    rw [fieldsAreChecked]
    exact ⟨Field.IsFor.isChecked hd he h.1, isChecked_of_fieldsAreFor hd he h.2⟩

theorem Field.IsFor.isChecked (hd : job.document.hasDistinctNames)
    (he : job.engine = Engine.judging inspection judge) :
    ∀ {place : Place} {field : Field} {rule : String × Json}, field.IsFor job place rule →
      field.IsChecked judge job.options
  | _, ⟨_, _, kind⟩, rule, h => by
    rw [Field.IsFor] at h
    obtain ⟨_, target, _, hkind⟩ := h
    rw [Field.IsChecked]
    exact FieldKind.IsFor.isChecked hd he hkind

theorem FieldKind.IsFor.isChecked (hd : job.document.hasDistinctNames)
    (he : job.engine = Engine.judging inspection judge) :
    ∀ {kind : FieldKind} {target : Place}, kind.IsFor job target → kind.IsChecked judge job.options
  | .object type, target, h => by
    rw [FieldKind.IsFor] at h
    rw [FieldKind.IsChecked]
    exact ModelType.IsFor.isChecked hd he h
  | .array type, target, h => by
    rw [FieldKind.IsFor] at h
    rw [FieldKind.IsChecked]
    exact SequenceType.IsFor.isChecked hd he h
  | .scalar, _, _ | .union, _, _ => trivial

theorem SequenceType.IsFor.isChecked (hd : job.document.hasDistinctNames)
    (he : job.engine = Engine.judging inspection judge) :
    ∀ {type : SequenceType} {place : Place}, type.IsFor job place → type.IsChecked judge job.options
  | ⟨_, element, _, _⟩, place, h => by
    rw [SequenceType.IsFor] at h
    obtain ⟨hhanded, object?, _, helement⟩ := h
    rw [SequenceType.IsChecked]
    exact ⟨hhanded.options_eq, hhanded.isJudgedBy he, isChecked_of_elementIsFor hd he helement⟩

theorem isChecked_of_elementIsFor (hd : job.document.hasDistinctNames)
    (he : job.engine = Engine.judging inspection judge) :
    ∀ {element : Option ModelType} {object? : Option Place}, elementIsFor job element object? →
      elementIsChecked judge job.options element
  | none, _, _ => trivial
  | some type, none, h => h.elim
  | some type, some object, h => by
    rw [elementIsFor] at h
    rw [elementIsChecked]
    exact ModelType.IsFor.isChecked hd he h
end

end Origins

variable {schema : Schema} {number : Nat} {inspection : Json → Except SchemaError Unit}

/-- A schema without repeated names compiles into a model type whose nodes are all checked by conversion
and the judge. -/
theorem Schema.isChecked_compileModel {type : ModelType} (hd : schema.document.hasDistinctNames)
    (h : schema.compileModel number (Engine.judging inspection judge) options = .ok type) :
    type.IsChecked judge options := by
  obtain ⟨_, hfor⟩ := schema.exists_isFor_compileModel hd h
  exact hfor.isChecked hd rfl

/-- The same for sequence types. -/
theorem Schema.isChecked_compileSequence {type : SequenceType} (hd : schema.document.hasDistinctNames)
    (h : schema.compileSequence number (Engine.judging inspection judge) options = .ok type) :
    type.IsChecked judge options := by
  obtain ⟨_, hfor⟩ := schema.exists_isFor_compileSequence hd h
  exact hfor.isChecked hd rfl

end SchemaBound
