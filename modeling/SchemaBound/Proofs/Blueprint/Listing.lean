import Mathlib.Data.List.Basic
import Mathlib.Logic.Relation
import SchemaBound.Blueprint.Path

/-! The compiled types inside a compiled type, each behind those that it holds itself, and lists with each
member once, where it occurs first. -/
namespace SchemaBound
open Relation

section FirstOccurrences

variable {α : Type} [DecidableEq α]

theorem nodup_eraseDups (list : List α) : list.eraseDups.Nodup := by
  induction hn : list.length using Nat.strongRecOn generalizing list with
  | _ n ih =>
    cases list with
    | nil => exact List.nodup_nil
    | cons a rest =>
      have hshort : (rest.filter fun b => !b == a).length < n := by
        rw [← hn, List.length_cons]
        exact Nat.lt_succ_of_le (List.length_filter_le _ _)
      rw [List.eraseDups_cons]
      refine List.nodup_cons.mpr ⟨fun ha => ?_, ih _ hshort _ rfl⟩
      simpa using (List.mem_filter.mp (List.mem_eraseDups.mp ha)).2

theorem eraseDups_of_nodup {list : List α} (h : list.Nodup) : list.eraseDups = list := by
  induction list with
  | nil => rfl
  | cons a rest ih =>
    obtain ⟨ha, hrest⟩ := List.nodup_cons.mp h
    have hkeep : (rest.filter fun b => !b == a) = rest := by
      refine List.filter_eq_self.mpr fun b hb => ?_
      have hne : b ≠ a := fun hba => ha (hba ▸ hb)
      simpa using hne
    rw [List.eraseDups_cons, hkeep, ih hrest]

/-- What is listed already is not listed again. -/
theorem eraseDups_append_of_subset {list more : List α} (h : list.Nodup) (hmore : more ⊆ list) :
    (list ++ more).eraseDups = list := by
  have hnothing : more.removeAll list = [] := by
    rw [List.removeAll, List.filter_eq_nil_iff]
    intro a ha
    simpa using hmore ha
  rw [List.eraseDups_append, hnothing, eraseDups_of_nodup h, List.eraseDups_nil, List.append_nil]

theorem eraseDups_eraseDups_append (list more : List α) :
    (list.eraseDups ++ more).eraseDups = (list ++ more).eraseDups := by
  have hsame : more.removeAll list.eraseDups = more.removeAll list := by
    refine List.filter_congr fun a _ => ?_
    simp
  rw [List.eraseDups_append, List.eraseDups_append, hsame, eraseDups_of_nodup (nodup_eraseDups list)]

end FirstOccurrences

/-- The type of the instances that fields of the kind hold. -/
def FieldKind.held? : FieldKind → Option Blueprint
  | .object type => some (.model type)
  | .array type => some (.sequence type)
  | .scalar | .union => none

namespace Blueprint

def pointer : Blueprint → String
  | .model type => type.id.pointer
  | .sequence type => type.id.pointer

/-- The types that the fields of a type, or its elements, are of. -/
def held : Blueprint → List Blueprint
  | .model type => type.fields.filterMap (·.kind.held?)
  | .sequence type => type.element.toList.map .model

/-- The second type is the first one, or it is held by it at some depth. -/
def Reaches : Blueprint → Blueprint → Prop := ReflTransGen fun outer inner => inner ∈ outer.held

end Blueprint

mutual
/-- The types inside a type and the type itself, field by field, each behind those that it holds. A type that
is held more than once is listed more than once. -/
def ModelType.parts : ModelType → List Blueprint
  | ⟨id, title, fields, validator, options⟩ =>
    partsOfFields fields ++ [.model ⟨id, title, fields, validator, options⟩]

def partsOfFields : List Field → List Blueprint
  | [] => []
  | field :: fields => field.parts ++ partsOfFields fields

def Field.parts : Field → List Blueprint
  | ⟨_, _, kind⟩ => kind.parts

def FieldKind.parts : FieldKind → List Blueprint
  | .object type => type.parts
  | .array type => type.parts
  | .scalar | .union => []

def SequenceType.parts : SequenceType → List Blueprint
  | ⟨id, element, validator, options⟩ =>
    partsOfElement element ++ [.sequence ⟨id, element, validator, options⟩]

def partsOfElement : Option ModelType → List Blueprint
  | none => []
  | some type => type.parts
end

def Blueprint.parts : Blueprint → List Blueprint
  | .model type => type.parts
  | .sequence type => type.parts

theorem partsOfFields_eq (fields : List Field) : partsOfFields fields = fields.flatMap fun field => field.kind.parts := by
  induction fields with
  | nil => rfl
  | cons field fields ih =>
    obtain ⟨name, pointer, kind⟩ := field
    rw [partsOfFields, Field.parts, ih, List.flatMap_cons]

theorem partsOfElement_eq (element : Option ModelType) : partsOfElement element = element.toList.flatMap ModelType.parts := by
  cases element with
  | none => rfl
  | some type => simp [partsOfElement]

theorem FieldKind.parts_eq (kind : FieldKind) : kind.parts = kind.held?.toList.flatMap Blueprint.parts := by
  cases kind <;> simp [parts, held?, Blueprint.parts]

theorem ModelType.parts_eq (type : ModelType) :
    type.parts = (type.fields.flatMap fun field => field.kind.parts) ++ [.model type] := by
  obtain ⟨id, title, fields, validator, options⟩ := type
  rw [parts, partsOfFields_eq]

theorem SequenceType.parts_eq (type : SequenceType) :
    type.parts = type.element.toList.flatMap ModelType.parts ++ [.sequence type] := by
  obtain ⟨id, element, validator, options⟩ := type
  rw [parts, partsOfElement_eq]

namespace Blueprint

/-- A type is listed behind all that the types held by it list. -/
theorem parts_eq (type : Blueprint) : type.parts = type.held.flatMap parts ++ [type] := by
  cases type with
  | model type =>
    rw [parts, ModelType.parts_eq, held, List.filterMap_eq_flatMap_toList, List.flatMap_assoc]
    simp only [FieldKind.parts_eq]
  | sequence type =>
    rw [parts, SequenceType.parts_eq, held, List.flatMap_map]
    rfl

theorem self_mem_parts (type : Blueprint) : type ∈ type.parts := by
  rw [parts_eq]
  exact List.mem_append_right _ List.mem_cons_self

theorem mem_parts_of_mem_held {outer inner part : Blueprint} (hheld : inner ∈ outer.held) (h : part ∈ inner.parts) :
    part ∈ outer.parts := by
  rw [parts_eq]
  exact List.mem_append_left _ (List.mem_flatMap.mpr ⟨inner, hheld, h⟩)

end Blueprint

mutual
private theorem ModelType.reaches_of_mem_parts : ∀ (type : ModelType) {part : Blueprint},
    part ∈ type.parts → (Blueprint.model type).Reaches part
  | ⟨id, title, fields, validator, options⟩, part, h => by
    rw [ModelType.parts] at h
    rcases List.mem_append.mp h with h | h
    · obtain ⟨inner, hinner, hreaches⟩ := exists_of_mem_partsOfFields fields h
      exact .head hinner hreaches
    · obtain rfl := List.mem_singleton.mp h
      exact .refl

private theorem exists_of_mem_partsOfFields : ∀ (fields : List Field) {part : Blueprint},
    part ∈ partsOfFields fields → ∃ inner ∈ fields.filterMap (·.kind.held?), inner.Reaches part
  | [], part, h => by
    rw [partsOfFields] at h
    cases h
  | ⟨name, pointer, kind⟩ :: fields, part, h => by
    rw [partsOfFields, Field.parts] at h
    rcases List.mem_append.mp h with h | h
    · obtain ⟨inner, hinner, hreaches⟩ := FieldKind.exists_of_mem_parts kind h
      exact ⟨inner, List.mem_filterMap.mpr ⟨_, List.mem_cons_self, hinner⟩, hreaches⟩
    · obtain ⟨inner, hinner, hreaches⟩ := exists_of_mem_partsOfFields fields h
      obtain ⟨field, hfield, hheld⟩ := List.mem_filterMap.mp hinner
      exact ⟨inner, List.mem_filterMap.mpr ⟨field, List.mem_cons_of_mem _ hfield, hheld⟩, hreaches⟩

private theorem FieldKind.exists_of_mem_parts : ∀ (kind : FieldKind) {part : Blueprint},
    part ∈ kind.parts → ∃ inner, kind.held? = some inner ∧ inner.Reaches part
  | .object type, part, h => by
    rw [FieldKind.parts] at h
    exact ⟨.model type, rfl, ModelType.reaches_of_mem_parts type h⟩
  | .array type, part, h => by
    rw [FieldKind.parts] at h
    exact ⟨.sequence type, rfl, SequenceType.reaches_of_mem_parts type h⟩
  | .scalar, part, h
  | .union, part, h => by
    rw [FieldKind.parts] at h
    cases h

private theorem SequenceType.reaches_of_mem_parts : ∀ (type : SequenceType) {part : Blueprint},
    part ∈ type.parts → (Blueprint.sequence type).Reaches part
  | ⟨id, none, validator, options⟩, part, h => by
    rw [SequenceType.parts, partsOfElement, List.nil_append] at h
    obtain rfl := List.mem_singleton.mp h
    exact .refl
  | ⟨id, some element, validator, options⟩, part, h => by
    rw [SequenceType.parts, partsOfElement] at h
    rcases List.mem_append.mp h with h | h
    · have hheld : Blueprint.model element ∈ (Blueprint.sequence ⟨id, some element, validator, options⟩).held :=
        List.mem_cons_self
      exact .head hheld (ModelType.reaches_of_mem_parts element h)
    · obtain rfl := List.mem_singleton.mp h
      exact .refl
end

/-- The listed types are the type itself and all that it holds at any depth. -/
theorem Blueprint.mem_parts_iff {type part : Blueprint} : part ∈ type.parts ↔ type.Reaches part := by
  constructor
  · intro h
    cases type with
    | model type => exact ModelType.reaches_of_mem_parts type h
    | sequence type => exact SequenceType.reaches_of_mem_parts type h
  · intro h
    induction h using ReflTransGen.head_induction_on with
    | refl => exact part.self_mem_parts
    | head hheld _ ih => exact mem_parts_of_mem_held hheld ih

end SchemaBound
