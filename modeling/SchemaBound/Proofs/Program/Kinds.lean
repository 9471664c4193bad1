import SchemaBound.Proofs.Blueprint.Listing
import SchemaBound.Proofs.Instance.Typed
import SchemaBound.Proofs.Program.DisciplinedRuns

/-! The instances that programs can make of compiled types, and that their slots keep to the declared kinds as long
as no change of a nested instance leaves one of another type. -/
namespace SchemaBound
open Success

section Attained

variable (inspection : Json → Except SchemaError Unit) (judge : Json → Json → List Violation)

/-- The types that schemas are compiled to, and the types that these hold. -/
inductive Blueprint.IsCompiled : Blueprint → Prop
  | model {schema : Schema} {number : Nat} {options : Options} {type : ModelType} :
      schema.document.hasDistinctNames →
      schema.compileModel number (Engine.judging inspection judge) options = .ok type → IsCompiled (.model type)
  | sequence {schema : Schema} {number : Nat} {options : Options} {type : SequenceType} :
      schema.document.hasDistinctNames →
      schema.compileSequence number (Engine.judging inspection judge) options = .ok type → IsCompiled (.sequence type)
  | held {outer inner : Blueprint} : IsCompiled outer → inner ∈ outer.held → IsCompiled inner

variable [Memory]

/-- The instances that programs can come to: empty and created ones, and all that a program leaves, shows or saves
that is run on such an instance and is given such instances, of whichever types. In faithful programs the changes of
nested instances leave instances of the same types. -/
inductive Attained (faithful : Bool) : Instance → Prop
  | emptyModel {type : ModelType} : Blueprint.IsCompiled inspection judge (.model type) →
      Attained faithful (.model type.empty)
  | emptySequence {type : SequenceType} : Blueprint.IsCompiled inspection judge (.sequence type) →
      Attained faithful (.sequence type.empty)
  | created {type : Blueprint} {v : Json} {made : Instance} : type.IsCompiled inspection judge →
      type.create v = .ok made → Attained faithful made
  | ranModel {steps : List ModelStep} {m : Model} {saved : Saved} {found : Instance} :
      Attained faithful (.model m) → (∀ kept ∈ saved.instances, Attained faithful kept) →
      (∀ given ∈ modelStepInstances steps, Attained faithful given) →
      (faithful → modelStepsAreFaithful steps m saved) →
      found ∈ (runModel steps m saved).instances entryInstances .model → Attained faithful found
  | ranSequence {steps : List SequenceStep} {s : Sequence} {saved : Saved} {found : Instance} :
      Attained faithful (.sequence s) → (∀ kept ∈ saved.instances, Attained faithful kept) →
      (∀ given ∈ sequenceStepInstances steps, Attained faithful given) →
      (faithful → sequenceStepsAreFaithful steps s saved) →
      found ∈ (runSequence steps s saved).instances entryInstances .sequence → Attained faithful found

/-- For changes of what an instance with slots of their kinds holds: exactly those that leave an instance of the same
type, with slots of their kinds, keep it so. -/
structure Instance.ChangesKeepKinds (i : Instance) : Prop where
  withModel : ∀ {m : Model} {α : Type} {name : String} {f : Model → Except Error (α × Model)} {a : α} {after : Model},
    i = .model m → m.withModel name f = .ok (a, after) →
    ∃ nested changed, m.model? name = some nested ∧ f nested = .ok (a, changed) ∧
      (after.IsTyped judge ↔ changed.IsTyped judge ∧ changed.type.same nested.type)
  withSequence : ∀ {m : Model} {α : Type} {name : String} {f : Sequence → Except Error (α × Sequence)} {a : α}
    {after : Model}, i = .model m → m.withSequence name f = .ok (a, after) →
    ∃ nested changed, m.sequence? name = some nested ∧ f nested = .ok (a, changed) ∧
      (after.IsTyped judge ↔ changed.IsTyped judge ∧ changed.type.same nested.type)
  updateAt : ∀ {s : Sequence} {α : Type} {index : Nat} {f : Model → Except Error (α × Model)} {a : α}
    {after : Sequence}, i = .sequence s → s.updateAt index f = .ok (a, after) →
    ∃ nested changed, s.get? index = some (.model nested) ∧ f nested = .ok (a, changed) ∧
      (after.IsTyped judge ↔ changed.IsTyped judge ∧ changed.type.same nested.type)

end Attained

variable {inspection : Json → Except SchemaError Unit} {judge : Json → Json → List Violation}

theorem Blueprint.IsCompiled.isMade {type : Blueprint} (h : type.IsCompiled inspection judge) : type.IsMade judge := by
  induction h with
  | model hd h => exact ⟨_, Schema.isChecked_compileModel hd h⟩
  | sequence hd h => exact ⟨_, Schema.isChecked_compileSequence hd h⟩
  | held _ hheld ih => exact ih.held hheld

section Runs

/-- All the instances have slots of their declared kinds. -/
def AllTyped (judge : Json → Json → List Violation) (found : List Instance) : Prop := ∀ i ∈ found, i.IsTyped judge

theorem allObey_typed_iff {found : List Instance} : AllObey (.typed judge) found ↔ AllTyped judge found :=
  forall₂_congr fun _ _ => Instance.obeys_typed_iff

variable {saved : Saved}

variable [Memory]

/-- A faithful program on an instance with slots of their kinds leaves such instances only. -/
theorem allTyped_of_runModel (steps : List ModelStep) {m : Model} (hm : m.IsTyped judge)
    (hsaved : AllTyped judge saved.instances) (hgiven : AllTyped judge (modelStepInstances steps))
    (hf : modelStepsAreFaithful steps m saved) :
    AllTyped judge ((runModel steps m saved).instances entryInstances .model) := by
  have hm := Model.obeys_typed_iff.mpr hm
  rw [← allObey_typed_iff] at hsaved hgiven ⊢
  exact allObey_of_runModel (Discipline.isKept_typed judge) steps hm hsaved hgiven fun _ => hf

/-- A faithful program on an instance with slots of their kinds leaves such instances only. -/
theorem allTyped_of_runSequence (steps : List SequenceStep) {s : Sequence} (hs : s.IsTyped judge)
    (hsaved : AllTyped judge saved.instances) (hgiven : AllTyped judge (sequenceStepInstances steps))
    (hf : sequenceStepsAreFaithful steps s saved) :
    AllTyped judge ((runSequence steps s saved).instances entryInstances .sequence) := by
  have hs := Sequence.obeys_typed_iff.mpr hs
  rw [← allObey_typed_iff] at hsaved hgiven ⊢
  exact allObey_of_runSequence (Discipline.isKept_typed judge) steps hs hsaved hgiven fun _ => hf

end Runs

theorem Instance.changesKeepKinds {i : Instance} (h : i.IsTyped judge) : i.ChangesKeepKinds judge where
  withModel hi hwith := by
    subst hi
    exact Model.isTyped_withModel_iff h hwith
  withSequence hi hwith := by
    subst hi
    exact Model.isTyped_withSequence_iff h hwith
  updateAt hi hupdate := by
    subst hi
    exact Sequence.isTyped_updateAt_iff h hupdate

/-- Whatever faithful programs come to has one slot for each declared field, and each slot, at every depth, holds what
its kind asks for, given values and instances of any types. A change of what such an instance holds keeps this
exactly if it leaves an instance of the same type. -/
theorem isTyped_of_attained [Memory] (inspection : Json → Except SchemaError Unit)
    (judge : Json → Json → List Violation)
    {found : Instance} (h : Attained inspection judge true found) :
    found.IsTyped judge ∧ found.ChangesKeepKinds judge := by
  have htyped : found.IsTyped judge := by
    induction h with
    | emptyModel htype => exact ModelType.isTyped_empty htype.isMade
    | emptySequence htype => exact SequenceType.isTyped_empty htype.isMade
    | created htype hcreate => exact Blueprint.isTyped_of_create htype.isMade hcreate
    | ranModel _ _ _ hfaithful hfound hm hsaved hgiven =>
      exact allTyped_of_runModel _ hm hsaved hgiven (hfaithful rfl) _ hfound
    | ranSequence _ _ _ hfaithful hfound hs hsaved hgiven =>
      exact allTyped_of_runSequence _ hs hsaved hgiven (hfaithful rfl) _ hfound
  exact ⟨htyped, Instance.changesKeepKinds htyped⟩

section Samples

/-- Two nested objects with different fields. -/
def twoObjects : Schema := ⟨.obj [
  ("type", .str "object"),
  ("properties", .obj [
    ("a", .obj [("type", .str "object"), ("properties", .obj [("x", .obj [])])]),
    ("b", .obj [("type", .str "object"), ("properties", .obj [("y", .obj [])])])])]⟩

/-- The object under `b` is assigned to `a`. -/
def assignsOther : List ModelStep := [.withModel "b" [.save "b"], .set "a" (.saved "b")]

/-- The object under `b` takes the place of the one under `a` within a change of that. -/
def restoresOther : List ModelStep := [.withModel "b" [.save "b"], .withModel "a" [.restore "b"]]

/-- The pointers of the types of the objects under `a` and of the field `a`. -/
def typesOfA (m : Model) : Option (String × String) :=
  match m.slotOf? "a" with
  | some (_, field, some (.model nested)) =>
    match field.kind with
    | .object type => some (nested.type.id.pointer, type.id.pointer)
    | _ => none
  | _ => none

theorem Model.IsTyped.typesOfA_eq {m : Model} (h : m.IsTyped judge) {first second : String}
    (htypes : typesOfA m = some (first, second)) : first = second := by
  unfold typesOfA at htypes
  split at htypes
  · rename_i slot field nested hslot
    split at htypes
    · rename_i type hkind
      obtain ⟨rfl, rfl⟩ := Prod.mk.inj (Option.some.inj htypes)
      have hsuits := slotSuits_some.mp ((Model.obeys_typed_iff.mpr h).slotSuits hslot)
      obtain ⟨type', hkind', hsame, _⟩ := FieldValue.suits_model.mp hsuits
      obtain rfl := FieldKind.object.inj (hkind.symm.trans hkind')
      rw [ModelType.same_iff.mp hsame]
    · cases htypes
  · cases htypes

/-- A run of a program of such steps on two nested objects, by the engine for Draft 7. -/
private theorem exists_attained (steps : List ModelStep) (faithful : Bool) (types : String × String)
    (hgiven : modelStepInstances steps = [])
    (hrun : yields (twoObjects.compileModel 0 Engine.draft7 .strict) fun type =>
      yields (type.create (.obj [("a", .obj []), ("b", .obj [])])) fun m =>
        (!faithful || modelStepsAreFaithful steps m []) && yields (runModel steps m []).1 fun result =>
          typesOfA result.2 = some types) :
    ∃ inspection judge last, Engine.draft7 = Engine.judging inspection judge ∧
      Attained inspection judge faithful (.model last) ∧ typesOfA last = some types := by
  obtain ⟨type, htype, hrun⟩ := exists_of_yields hrun
  obtain ⟨m, hm, hrun⟩ := exists_of_yields hrun
  obtain ⟨hfaithful, hrun⟩ := Bool.and_eq_true_iff.mp hrun
  obtain ⟨⟨entries, last⟩, hrun, hlast⟩ := exists_of_yields hrun
  have hcompiled := Blueprint.IsCompiled.model (by decide) (Engine.draft7_eq_judging ▸ htype)
  have hcreate : Blueprint.create (.model type) (.obj [("a", .obj []), ("b", .obj [])]) = .ok (.model m) := by
    rw [Blueprint.create, hm]
    rfl
  refine ⟨_, _, last, Engine.draft7_eq_judging, ?_, of_decide_eq_true hlast⟩
  have hfound : Instance.model last ∈ (runModel steps m []).instances entryInstances .model := by
    rcases houtcome : runModel steps m [] with ⟨result, saved⟩
    rw [houtcome] at hrun
    obtain rfl : result = .ok (entries, last) := hrun
    exact List.mem_cons_self
  refine .ranModel (.created hcompiled hcreate) (fun kept h => ?_) (fun given h => ?_) (fun h => ?_) hfound
  · cases h
  · rw [hgiven] at h
    cases h
  · rw [h] at hfaithful
    exact hfaithful

/-- An object that is assigned to the other field becomes an instance of that field's type. -/
theorem isTyped_of_assignsOther : ∃ inspection judge last, Engine.draft7 = Engine.judging inspection judge ∧
    Attained inspection judge true (.model last) ∧ typesOfA last = some ("#/properties/a", "#/properties/a") ∧
    last.IsTyped judge ∧ Instance.ChangesKeepKinds judge (.model last) := by
  obtain ⟨inspection, judge, last, hengine, hattained, htypes⟩ :=
    exists_attained assignsOther true ("#/properties/a", "#/properties/a") rfl (by decide +kernel)
  obtain ⟨htyped, hchanges⟩ := isTyped_of_attained inspection judge hattained
  exact ⟨inspection, judge, last, hengine, hattained, htypes, htyped, hchanges⟩

/-- A program that is not faithful leaves an object of the type of `b` in the field `a`. -/
theorem exists_attained_not_typed : ∃ inspection judge last, Engine.draft7 = Engine.judging inspection judge ∧
    Attained inspection judge false (.model last) ∧ typesOfA last = some ("#/properties/b", "#/properties/a") ∧
    ¬ last.IsTyped judge := by
  obtain ⟨inspection, judge, last, hengine, hattained, htypes⟩ :=
    exists_attained restoresOther false ("#/properties/b", "#/properties/a") rfl (by decide +kernel)
  refine ⟨inspection, judge, last, hengine, hattained, htypes, fun htyped => ?_⟩
  exact absurd (htyped.typesOfA_eq htypes) (by decide)

end Samples
end SchemaBound
