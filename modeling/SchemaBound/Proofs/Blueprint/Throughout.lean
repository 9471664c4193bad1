import SchemaBound.Proofs.Blueprint.Checked
import SchemaBound.Proofs.Blueprint.Listing

/-! Properties that a compiled type has together with all types in it, and those that every compilation gives:
each type is the engine's for some node, has the options of the compilation, and names no field twice. -/
namespace SchemaBound
open Relation

namespace Blueprint

/-- The type and all types in it have the property. -/
def Throughout (P : Blueprint → Prop) (type : Blueprint) : Prop := ∀ inner, type.Reaches inner → P inner

section Throughout

variable {P Q : Blueprint → Prop} {type inner : Blueprint}

theorem Throughout.self (h : type.Throughout P) : P type := h type .refl

theorem Throughout.reached (h : type.Throughout P) (hreach : type.Reaches inner) : inner.Throughout P :=
  fun part hpart => h part (hreach.trans hpart)

theorem Throughout.mono (h : type.Throughout P) (hpq : ∀ part, P part → Q part) : type.Throughout Q :=
  fun part hpart => hpq part (h part hpart)

/-- What every type hands down to those it holds is true of all types in a type. -/
theorem throughout_of_held (hheld : ∀ outer, P outer → ∀ inner ∈ outer.held, P inner) (h : P type) :
    type.Throughout P := by
  intro part hpart
  induction hpart with
  | refl => exact h
  | tail _ hlast ih => exact hheld _ ih _ hlast

theorem throughout_iff : type.Throughout P ↔ P type ∧ ∀ inner ∈ type.held, inner.Throughout P := by
  constructor
  · intro h
    exact ⟨h.self, fun inner hinner => h.reached (.single hinner)⟩
  · rintro ⟨hself, hheld⟩ part hpart
    rcases ReflTransGen.cases_head hpart with rfl | ⟨inner, hinner, hrest⟩
    · exact hself
    · exact hheld inner hinner part hrest

end Throughout
end Blueprint

section Kinds

variable (P : Blueprint → Prop)

def ModelType.Throughout (type : ModelType) : Prop := (Blueprint.model type).Throughout P

def SequenceType.Throughout (type : SequenceType) : Prop := (Blueprint.sequence type).Throughout P

/-- The type of instances, if the kind holds instances, has the property throughout. -/
def FieldKind.Throughout (kind : FieldKind) : Prop := ∀ inner, kind.held? = some inner → inner.Throughout P

/-- The type of elements that are objects, if there is one, has the property throughout. -/
def elementThroughout (element : Option ModelType) : Prop := ∀ type, element = some type → type.Throughout P

end Kinds

section Kinds

variable {P Q : Blueprint → Prop}

theorem ModelType.Throughout.self {type : ModelType} (h : type.Throughout P) : P (.model type) :=
  Blueprint.Throughout.self h

theorem SequenceType.Throughout.self {type : SequenceType} (h : type.Throughout P) : P (.sequence type) :=
  Blueprint.Throughout.self h

theorem ModelType.throughout_iff {type : ModelType} :
    type.Throughout P ↔ P (.model type) ∧ ∀ field ∈ type.fields, field.kind.Throughout P := by
  rw [Throughout, Blueprint.throughout_iff, Blueprint.held]
  refine and_congr_right fun _ => ?_
  constructor
  · intro h field hfield inner hinner
    exact h inner (List.mem_filterMap.mpr ⟨field, hfield, hinner⟩)
  · intro h inner hinner
    obtain ⟨field, hfield, hheld⟩ := List.mem_filterMap.mp hinner
    exact h field hfield inner hheld

theorem SequenceType.throughout_iff {type : SequenceType} :
    type.Throughout P ↔ P (.sequence type) ∧ elementThroughout P type.element := by
  rw [Throughout, Blueprint.throughout_iff, Blueprint.held]
  refine and_congr_right fun _ => ?_
  cases helement : type.element with
  | none => simp [elementThroughout]
  | some element => simp [elementThroughout, ModelType.Throughout]

theorem FieldKind.throughout_object {type : ModelType} :
    (FieldKind.object type).Throughout P ↔ type.Throughout P := by
  simp [Throughout, held?, ModelType.Throughout]

theorem FieldKind.throughout_array {type : SequenceType} :
    (FieldKind.array type).Throughout P ↔ type.Throughout P := by
  simp [Throughout, held?, SequenceType.Throughout]

theorem elementThroughout_some {type : ModelType} : elementThroughout P (some type) ↔ type.Throughout P := by
  simp [elementThroughout]

theorem ModelType.Throughout.mono {type : ModelType} (h : type.Throughout P) (hpq : ∀ part, P part → Q part) :
    type.Throughout Q :=
  Blueprint.Throughout.mono h hpq

theorem SequenceType.Throughout.mono {type : SequenceType} (h : type.Throughout P)
    (hpq : ∀ part, P part → Q part) : type.Throughout Q :=
  Blueprint.Throughout.mono h hpq

theorem FieldKind.Throughout.mono {kind : FieldKind} (h : kind.Throughout P) (hpq : ∀ part, P part → Q part) :
    kind.Throughout Q :=
  fun inner hinner => (h inner hinner).mono hpq

theorem elementThroughout.mono {element : Option ModelType} (h : elementThroughout P element)
    (hpq : ∀ part, P part → Q part) : elementThroughout Q element :=
  fun type htype => (h type htype).mono hpq

end Kinds

namespace Blueprint

/-- The type that a field holds instances of is held by the type of the field. -/
theorem mem_held_of_ofField {type : ModelType} {name : String} {inner : Blueprint}
    (h : ofField? type name = some inner) : inner ∈ (Blueprint.model type).held := by
  have hmem (kind : FieldKind) (hkind : (type.field? name).map Field.kind = some kind)
      (hheld : kind.held? = some inner) : inner ∈ (Blueprint.model type).held := by
    obtain ⟨field, hfield, rfl⟩ := Option.map_eq_some_iff.mp hkind
    exact List.mem_filterMap.mpr ⟨field, List.mem_of_find?_eq_some hfield, hheld⟩
  unfold ofField? at h
  split at h
  · rename_i nested hkind
    exact hmem _ hkind h
  · rename_i nested hkind
    exact hmem _ hkind h
  · cases h

/-- The type that names lead to is in the type that they start from. -/
theorem reaches_of_follow : ∀ {path : List String} {type inner : Blueprint}, type.follow? path = some inner →
    type.Reaches inner
  | [], type, inner, h => by
    rw [follow?] at h
    obtain rfl := Option.some.inj h
    exact .refl
  | name :: rest, .model type, inner, h => by
    rw [follow?] at h
    obtain ⟨next, hnext, h⟩ := Option.bind_eq_some_iff.mp h
    exact .head (mem_held_of_ofField hnext) (reaches_of_follow h)
  | name :: rest, .sequence type, inner, h => by
    rw [follow?] at h
    obtain ⟨element, helement, h⟩ := Option.bind_eq_some_iff.mp h
    have hheld : Blueprint.model element ∈ (Blueprint.sequence type).held := by
      simp [held, helement]
    split at h
    · exact .head hheld (reaches_of_follow h)
    · obtain ⟨next, hnext, h⟩ := Option.bind_eq_some_iff.mp h
      exact .head hheld (.head (mem_held_of_ofField hnext) (reaches_of_follow h))

/-- The names of the declared fields. -/
def fieldNames : Blueprint → List String
  | .model type => type.fields.map Field.name
  | .sequence _ => []

/-- No two fields share a name. -/
def HasDistinctNames (type : Blueprint) : Prop := type.fieldNames.Nodup

def validator : Blueprint → Validator
  | .model type => type.validator
  | .sequence type => type.validator

def options : Blueprint → Options
  | .model type => type.options
  | .sequence type => type.options

/-- The canonical form of an acceptable value. -/
def check (type : Blueprint) (v : Json) : Except (List Violation) Json := type.validator type.options v

/-- The type is judged, with all types in it. -/
def IsChecked (judge : Json → Json → List Violation) (options : Options) : Blueprint → Prop
  | .model type => type.IsChecked judge options
  | .sequence type => type.IsChecked judge options

end Blueprint

section Checked

variable {judge : Json → Json → List Violation} {options : Options}

theorem FieldKind.IsChecked.held {kind : FieldKind} (h : kind.IsChecked judge options) {inner : Blueprint}
    (hheld : kind.held? = some inner) : inner.IsChecked judge options := by
  cases kind with
  | object type | array type =>
    obtain rfl := Option.some.inj hheld
    rw [FieldKind.IsChecked] at h
    exact h
  | scalar | union => cases hheld

theorem Blueprint.IsChecked.throughout {type : Blueprint} (h : type.IsChecked judge options) :
    type.Throughout (IsChecked judge options) := by
  refine throughout_of_held (fun outer houter inner hinner => ?_) h
  cases outer with
  | model type =>
    obtain ⟨field, hfield, hheld⟩ := List.mem_filterMap.mp hinner
    exact ((ModelType.isChecked_iff.mp houter).2.2.2 field hfield).held hheld
  | sequence type =>
    have helement := (SequenceType.isChecked_iff.mp houter).2.2
    cases he : type.element with
    | none => simp [held, he] at hinner
    | some element =>
      rw [he, elementIsChecked] at helement
      obtain rfl : inner = .model element := by simpa [held, he] using hinner
      exact helement

theorem ModelType.IsChecked.throughout {type : ModelType} (h : type.IsChecked judge options) :
    type.Throughout (Blueprint.IsChecked judge options) := by
  have hroot : (Blueprint.model type).IsChecked judge options := h
  exact hroot.throughout

theorem SequenceType.IsChecked.throughout {type : SequenceType} (h : type.IsChecked judge options) :
    type.Throughout (Blueprint.IsChecked judge options) := by
  have hroot : (Blueprint.sequence type).IsChecked judge options := h
  exact hroot.throughout

theorem FieldKind.IsChecked.throughout {kind : FieldKind} (h : kind.IsChecked judge options) :
    kind.Throughout (Blueprint.IsChecked judge options) :=
  fun _ hheld => (h.held hheld).throughout

theorem elementIsChecked.throughout {element : Option ModelType} (h : elementIsChecked judge options element) :
    elementThroughout (Blueprint.IsChecked judge options) element := by
  rintro type rfl
  rw [elementIsChecked] at h
  exact h.throughout

/-- All types that names lead to are judged if the first one is. -/
theorem Blueprint.isChecked_follow {path : List String} {type inner : Blueprint} (hc : type.IsChecked judge options)
    (h : type.follow? path = some inner) : inner.IsChecked judge options :=
  hc.throughout inner (reaches_of_follow h)

end Checked

namespace Blueprint

/-- The type is that of a place of the document. -/
def IsFor (job : Compilation) : Blueprint → Prop
  | .model type => ∃ place, type.IsFor job place
  | .sequence type => ∃ place, type.IsFor job place

/-- The type is what the engine makes of a node under the options, and no two of its fields share a name. -/
structure ComesFrom (engine : Engine) (options : Options) (type : Blueprint) : Prop where
  handed : ∃ node, engine node = .ok type.validator
  options_eq : type.options = options
  names : type.HasDistinctNames

end Blueprint

theorem FieldKind.IsFor.held {job : Compilation} {kind : FieldKind} {target : Place} (h : kind.IsFor job target)
    {inner : Blueprint} (hheld : kind.held? = some inner) : inner.IsFor job := by
  cases kind with
  | object type | array type =>
    obtain rfl := Option.some.inj hheld
    rw [FieldKind.IsFor] at h
    exact ⟨target, h⟩
  | scalar | union => cases hheld

namespace Blueprint

variable {job : Compilation}

/-- All types in the type of a place are those of places. -/
theorem IsFor.throughout {type : Blueprint} (h : type.IsFor job) : type.Throughout (IsFor job) := by
  refine throughout_of_held (fun outer houter inner hinner => ?_) h
  cases outer with
  | model type =>
    obtain ⟨place, hplace⟩ := houter
    obtain ⟨rules, _, hfields⟩ := hplace.exists_rules
    obtain ⟨field, hfield, hheld⟩ := List.mem_filterMap.mp hinner
    obtain ⟨hlength, hzip⟩ := List.forall₂_iff_zip.mp hfields
    obtain ⟨rule, hmem⟩ := exists_mem_zip_of_mem hlength hfield
    obtain ⟨_, target, _, hkind⟩ := hzip hmem
    exact hkind.held hheld
  | sequence type =>
    obtain ⟨place, hplace⟩ := houter
    obtain ⟨element, helement, rfl⟩ := List.mem_map.mp hinner
    obtain ⟨object, _, hobject⟩ := hplace.exists_object_of_element (Option.mem_toList.mp helement)
    exact ⟨object, hobject⟩

theorem IsFor.comesFrom (hd : job.document.hasDistinctNames) {type : Blueprint} (h : type.IsFor job) :
    type.ComesFrom job.engine job.options := by
  cases type with
  | model type =>
    obtain ⟨place, hplace⟩ := h
    have hhanded := hplace.isHanded
    obtain ⟨id, title, fields, validator, options⟩ := type
    rw [ModelType.IsFor] at hplace
    obtain ⟨_, rules, hrules, hfields⟩ := hplace
    refine ⟨⟨_, hhanded.handed⟩, hhanded.options_eq, ?_⟩
    rw [HasDistinctNames, fieldNames, names_of_fieldsAreFor hfields]
    exact nodup_properties (hhanded.reached.hasDistinctNames hd) hrules
  | sequence type =>
    obtain ⟨place, hplace⟩ := h
    exact ⟨⟨_, hplace.isHanded.handed⟩, hplace.isHanded.options_eq, List.nodup_nil⟩

end Blueprint

/-- The type is what the schema compiles into, as a model type or as a sequence type. -/
def Schema.CompilesTo (schema : Schema) (number : Nat) (engine : Engine) (options : Options) :
    Blueprint → Prop
  | .model type => schema.compileModel number engine options = .ok type
  | .sequence type => schema.compileSequence number engine options = .ok type

section Compiled

variable {schema : Schema} (hd : schema.document.hasDistinctNames) {number : Nat} {engine : Engine}
  {options : Options} {root : Blueprint}
include hd

theorem Schema.CompilesTo.isChecked {judge : Json → Json → List Violation}
    {inspection : Json → Except SchemaError Unit}
    (h : schema.CompilesTo number (Engine.judging inspection judge) options root) :
    root.IsChecked judge options := by
  cases root with
  | model type => exact Schema.isChecked_compileModel hd h
  | sequence type => exact Schema.isChecked_compileSequence hd h

/-- Whatever the engine, every type that a compilation makes comes from it, at every depth. -/
theorem Schema.CompilesTo.comesFrom (h : schema.CompilesTo number engine options root) :
    root.Throughout (Blueprint.ComesFrom engine options) := by
  have hfor : root.IsFor ⟨number, schema.document, engine, options⟩ := by
    cases root with
    | model type => exact schema.exists_isFor_compileModel hd h
    | sequence type => exact schema.exists_isFor_compileSequence hd h
  exact hfor.throughout.mono fun _ hpart => hpart.comesFrom hd

end Compiled

/-- Under the options the engine's checks give back accepted values as they are. -/
def Engine.IsVerbatim (engine : Engine) (options : Options) : Prop :=
  ∀ node validator, engine node = .ok validator →
    ∀ v canonical, validator options v = .ok canonical → canonical = v

/-- Without conversion the canonical form of a value is the value. -/
theorem IsJudgedBy.eq_of_ok {judge : Json → Json → List Violation} {options : Options} {validator : Validator}
    (h : IsJudgedBy judge validator) (hc : options.coerce = false) {v canonical : Json}
    (hcheck : validator options v = .ok canonical) : canonical = v := by
  obtain ⟨node, rfl⟩ := h
  simp only [Engine.validatorBy, hc, Bool.false_eq_true, if_false] at hcheck
  split at hcheck
  · exact (Except.ok.inj hcheck).symm
  · cases hcheck

/-- Engines that convert values as the one for Draft 7 does leave them alone when conversion is off. -/
theorem Engine.isVerbatim_judging {inspection : Json → Except SchemaError Unit}
    {judge : Json → Json → List Violation} {options : Options} (hc : options.coerce = false) :
    (Engine.judging inspection judge).IsVerbatim options := by
  intro node validator hvalidator v canonical hcheck
  obtain ⟨_, _, hvalidator⟩ := Success.bind_eq_ok.mp hvalidator
  exact IsJudgedBy.eq_of_ok ⟨node, (Success.pure_eq_ok.mp hvalidator).symm⟩ hc hcheck

theorem Engine.isVerbatim_draft7 {options : Options} (hc : options.coerce = false) :
    Engine.draft7.IsVerbatim options :=
  Engine.draft7_eq_judging ▸ Engine.isVerbatim_judging hc

/-- The check gives back accepted values as they are, and no two fields share a name. -/
structure Blueprint.IsVerbatim (type : Blueprint) : Prop where
  names : type.HasDistinctNames
  verbatim {v canonical : Json} : type.check v = .ok canonical → canonical = v

theorem Blueprint.ComesFrom.isVerbatim {engine : Engine} {options : Options} (hv : engine.IsVerbatim options)
    {type : Blueprint} (h : type.ComesFrom engine options) : type.IsVerbatim := by
  obtain ⟨node, hnode⟩ := h.handed
  refine ⟨h.names, fun {v canonical} hcheck => hv node _ hnode v canonical ?_⟩
  rw [check, h.options_eq] at hcheck
  exact hcheck

theorem Blueprint.IsChecked.isVerbatim {judge : Json → Json → List Violation} {options : Options}
    (hc : options.coerce = false) {type : Blueprint} (h : type.IsChecked judge options) : type.IsVerbatim := by
  cases type with
  | model type =>
    obtain ⟨hoptions, hjudged, hnames, _⟩ := ModelType.isChecked_iff.mp h
    refine ⟨hnames, fun {v canonical} hcheck => hjudged.eq_of_ok hc ?_⟩
    rw [← hoptions]
    exact hcheck
  | sequence type =>
    obtain ⟨hoptions, hjudged, _⟩ := SequenceType.isChecked_iff.mp h
    refine ⟨List.nodup_nil, fun {v canonical} hcheck => hjudged.eq_of_ok hc ?_⟩
    rw [← hoptions]
    exact hcheck

theorem ModelType.IsChecked.isVerbatim {judge : Json → Json → List Violation} {options : Options}
    (hc : options.coerce = false) {type : ModelType} (h : type.IsChecked judge options) :
    type.Throughout Blueprint.IsVerbatim :=
  h.throughout.mono fun _ hpart => hpart.isVerbatim hc

theorem SequenceType.IsChecked.isVerbatim {judge : Json → Json → List Violation} {options : Options}
    (hc : options.coerce = false) {type : SequenceType} (h : type.IsChecked judge options) :
    type.Throughout Blueprint.IsVerbatim :=
  h.throughout.mono fun _ hpart => hpart.isVerbatim hc

end SchemaBound
