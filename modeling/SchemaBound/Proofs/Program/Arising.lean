import SchemaBound.Proofs.Blueprint.Throughout
import SchemaBound.Proofs.Program.DisciplinedRuns

/-! All the instances that programs come to with types from allowed engines. Whatever the programs do, instances
stand only where instances are declared. -/
namespace SchemaBound
open Success

section Arises

variable (allowed : Engine → Options → Prop)

/-- The types that schemas are compiled to by allowed engines, and the types that these hold. -/
inductive Blueprint.IsCompiledBy : Blueprint → Prop
  | root {schema : Schema} {number : Nat} {engine : Engine} {options : Options} {type : Blueprint} :
      schema.document.hasDistinctNames → allowed engine options → schema.CompilesTo number engine options type →
      IsCompiledBy type
  | held {outer inner : Blueprint} : IsCompiledBy outer → inner ∈ outer.held → IsCompiledBy inner

variable [Memory]

/-- The instances that programs can come to: empty and created ones, and all that a program leaves, shows or saves
that is run on such an instance and is given such instances, of whichever types. -/
inductive Arises : Instance → Prop
  | emptyModel {type : ModelType} : Blueprint.IsCompiledBy allowed (.model type) → Arises (.model type.empty)
  | emptySequence {type : SequenceType} : Blueprint.IsCompiledBy allowed (.sequence type) →
      Arises (.sequence type.empty)
  | created {type : Blueprint} {v : Json} {made : Instance} : type.IsCompiledBy allowed → type.create v = .ok made →
      Arises made
  | ranModel {steps : List ModelStep} {m : Model} {saved : Saved} {found : Instance} : Arises (.model m) →
      (∀ kept ∈ saved.instances, Arises kept) → (∀ given ∈ modelStepInstances steps, Arises given) →
      found ∈ (runModel steps m saved).instances entryInstances .model → Arises found
  | ranSequence {steps : List SequenceStep} {s : Sequence} {saved : Saved} {found : Instance} :
      Arises (.sequence s) → (∀ kept ∈ saved.instances, Arises kept) →
      (∀ given ∈ sequenceStepInstances steps, Arises given) →
      found ∈ (runSequence steps s saved).instances entryInstances .sequence → Arises found

end Arises

/-- Instances stand only where instances are declared, and their types have the property throughout. -/
def Discipline.shaped (P : Blueprint → Prop) : Discipline where
  admits := Blueprint.Throughout P
  plain _ _ := True
  plainElement _ _ := True
  model _ _ := True
  sequence _ _ := True

section Shaped

variable {P : Blueprint → Prop}

theorem slotSuits_shaped_adopt {kind : FieldKind} {slot : Option FieldValue} (h : SlotSuits (.shaped P) kind slot)
    (canonical : Option Json) : SlotSuits (.shaped P) kind (slot.map (FieldValue.adopt canonical)) := by
  rcases slot with _ | ⟨raw⟩ | ⟨m⟩ | ⟨s⟩
  · exact h
  · exact slotSuits_some.mpr trivial
  · exact h
  · exact h

theorem slotsObey_shaped_adoptFields {fields : List Field} {staged : List (Option FieldValue)}
    (h : slotsObey (.shaped P) fields staged) (canonical : Json) :
    slotsObey (.shaped P) fields (adoptFields canonical fields staged) := by
  rw [slotsObey_iff] at h ⊢
  induction h with
  | nil => rw [adoptFields_nil_left]; exact .nil
  | cons hslot _ ih =>
    rw [adoptFields_cons]
    exact .cons (slotSuits_shaped_adopt hslot _) ih

theorem elementsObey_shaped_adoptElements {element : Option ModelType} {staged : List (Option Element)}
    (h : elementsObey (.shaped P) element staged) (canonical : List Json) :
    elementsObey (.shaped P) element (adoptElements canonical staged) := by
  rw [elementsObey_iff] at h ⊢
  induction staged generalizing canonical with
  | nil => simp [adoptElements]
  | cons item items ih =>
    obtain ⟨hitem, hitems⟩ := List.forall_mem_cons.mp h
    rw [adoptElements_cons]
    refine List.forall_mem_cons.mpr ⟨fun e he => ?_, ih hitems canonical.tail⟩
    rcases item with _ | ⟨raw⟩ | ⟨m⟩
    · cases he
    · obtain rfl := Option.some.inj he
      trivial
    · exact hitem e he

theorem Discipline.isKept_shaped (P : Blueprint → Prop) (faithful : Bool) : (shaped P).IsKept faithful where
  held houter hinner := (Blueprint.throughout_iff.mp houter).2 _ hinner
  plain _ := trivial
  plainElement _ := trivial
  model _ := trivial
  sequence _ := trivial
  changedModel _ _ := trivial
  changedSequence _ _ := trivial
  fields _ hs _ := slotsObey_shaped_adoptFields hs _
  elements _ hs _ := elementsObey_shaped_adoptElements hs _

end Shaped

variable {allowed : Engine → Options → Prop} {P : Blueprint → Prop}

theorem Blueprint.IsCompiledBy.throughout {type : Blueprint} (h : type.IsCompiledBy allowed)
    (hP : ∀ {engine options} {part : Blueprint}, allowed engine options → part.ComesFrom engine options → P part) :
    type.Throughout P := by
  induction h with
  | root hd hallowed hcompiles => exact (hcompiles.comesFrom hd).mono fun _ hpart => hP hallowed hpart
  | held _ hinner ih => exact (throughout_iff.mp ih).2 _ hinner

variable [Memory]

/-- What the type of a schema makes of a value arises. -/
theorem Arises.of_create {schema : Schema} (hd : schema.document.hasDistinctNames) {number : Nat} {engine : Engine}
    {options : Options} (hallowed : allowed engine options) {type : ModelType}
    (hcompile : schema.compileModel number engine options = .ok type) {v : Json} {m : Model}
    (hcreate : type.create v = .ok m) : Arises allowed (.model m) := by
  have hcompiles : schema.CompilesTo number engine options (.model type) := hcompile
  have hmade : Blueprint.create (.model type) v = .ok (.model m) := by
    rw [Blueprint.create, hcreate]
    rfl
  exact .created (.root hd hallowed hcompiles) hmade

/-- All instances that arise are shaped as declared, and their types have what the allowed engines give types. -/
theorem Arises.obeys {found : Instance} (h : Arises allowed found)
    (hP : ∀ {engine options} {part : Blueprint}, allowed engine options → part.ComesFrom engine options → P part) :
    found.Obeys (.shaped P) := by
  induction h with
  | emptyModel htype => exact ModelType.obeys_empty (htype.throughout hP)
  | emptySequence htype => exact SequenceType.obeys_empty (htype.throughout hP)
  | created htype hcreate =>
    exact Blueprint.obeys_of_create (Discipline.isKept_shaped P false) (htype.throughout hP) hcreate
  | ranModel _ _ _ hfound hm hsaved hgiven =>
    exact allObey_of_runModel (Discipline.isKept_shaped P false) _ hm hsaved hgiven nofun _ hfound
  | ranSequence _ _ _ hfound hs hsaved hgiven =>
    exact allObey_of_runSequence (Discipline.isKept_shaped P false) _ hs hsaved hgiven nofun _ hfound

/-- Whatever the engines, no two fields of a type share a name. -/
theorem Arises.hasDistinctNames {found : Instance} (h : Arises allowed found) :
    found.Obeys (.shaped Blueprint.HasDistinctNames) :=
  h.obeys fun _ hpart => hpart.names

/-- Under engines that give back accepted values as they are, all the types do. -/
theorem Arises.isVerbatim {found : Instance} (h : Arises Engine.IsVerbatim found) :
    found.Obeys (.shaped Blueprint.IsVerbatim) :=
  h.obeys fun hverbatim hpart => hpart.isVerbatim hverbatim

end SchemaBound
