import SchemaBound.Program.Run
import SchemaBound.Proofs.Instance.Commit
import SchemaBound.Proofs.Instance.Positions
import SchemaBound.Proofs.Instance.Refusals

/-! Failures of operations inside others. An operation runs further ones on its instance, on the nested instances, and
for fields and positions that are given inputs. One that fails makes all around it fail, and each of these puts the
token of the field or the position before the positions in the error. -/
namespace SchemaBound
open Success Failure

/-- What a program or a write does to an instance, and what it does for a field or a position. -/
inductive Operation where
  | steps (body : List ModelStep) (m : Model) (saved : Saved)
  | step (step : ModelStep) (m : Model) (saved : Saved)
  | sequenceSteps (body : List SequenceStep) (s : Sequence) (saved : Saved)
  | sequenceStep (step : SequenceStep) (s : Sequence) (saved : Saved)
  | edit (pointer : String) (change : Edit) (m : Model) (tokens : List String)
  | editSequence (pointer : String) (change : Edit) (s : Sequence) (tokens : List String)
  /-- Reads an object into a model. -/
  | read (m : Model) (data : List (String × Json))
  /-- Makes of an input what a field of a kind holds next. -/
  | fill (kind : FieldKind) (current : Option FieldValue) (input : FieldValue)
  | put (type : SequenceType) (placement : Placement) (inputs : List Element)
  /-- Makes of an input what a position holds next. -/
  | place (type : SequenceType) (input : Element)

/-- The inputs that a step writes. -/
def ModelStep.inputs : ModelStep → List Input
  | .set _ input | .replace _ input => [input]
  | _ => []

namespace SequenceStep

/-- The inputs that a step writes. -/
def inputs : SequenceStep → List Input
  | .append input | .setAt _ input => [input]
  | .push inputs | .prepend inputs | .spliceAt _ _ inputs => inputs
  | _ => []

/-- Where a step puts its inputs, if the sequence can grow that far. -/
def placement? [Memory] (s : Sequence) : SequenceStep → Option Placement
  | .append _ | .push _ => some (.atEnd s)
  | .prepend _ => some (.atFront s)
  | .setAt i _ => if s.size ≤ i ∧ Memory.growthLimit ≤ i then none else some (.atIndex s i)
  | .spliceAt start count _ => some (.inPlaceOf s start count)
  | _ => none

end SequenceStep

namespace Operation

variable [Memory]

/-- The error that the operation yields in the place of an instance. -/
def Fails : Operation → Error → Prop
  | .steps body m saved, e => (runModel body m saved).1 = .error e
  | .step todo m saved, e => (todo.run m saved).1 = .error e
  | .sequenceSteps body s saved, e => (runSequence body s saved).1 = .error e
  | .sequenceStep todo s saved, e => (todo.run s saved).1 = .error e
  | .edit pointer change m tokens, e => m.edit pointer change tokens = .error e
  | .editSequence pointer change s tokens, e => s.edit pointer change tokens = .error e
  | .read m data, e => m.merge data = .error e
  | .fill kind current input, e => kind.stage current input = .error e
  | .put type placement inputs, e => type.put placement inputs = .error e
  | .place type input, e => type.stage input = .error e

/-- The first operation runs the second one, after all that it does before has succeeded. The token leads to the
nested instance that the second one is about; there is none where both are about the same instance. -/
inductive Enters : Operation → List String → Operation → Prop
  | first {todo : ModelStep} {rest : List ModelStep} {m : Model} {saved : Saved} :
      Enters (steps (todo :: rest) m saved) [] (step todo m saved)
  | later {todo : ModelStep} {rest : List ModelStep} {m after : Model} {saved between : Saved} {answer : Answer} :
      todo.run m saved = (.ok (answer, after), between) →
      Enters (steps (todo :: rest) m saved) [] (steps rest after between)
  | set {name : String} {input : Input} {m : Model} {saved : Saved} {slot : Nat} {field : Field}
      {current : Option FieldValue} {value : FieldValue} : m.slotOf? name = some (slot, field, current) →
      input.forModel m saved = .ok value →
      Enters (step (.set name input) m saved) [name] (fill field.kind current value)
  | replace {name : String} {input : Input} {m : Model} {saved : Saved} {slot : Nat} {field : Field}
      {current : Option FieldValue} {value : FieldValue} : m.slotOf? name = some (slot, field, current) →
      input.forModel m saved = .ok value →
      Enters (step (.replace name input) m saved) [name] (fill field.kind none value)
  | setData {data : List (String × Json)} {m : Model} {saved : Saved} :
      Enters (step (.setData (.obj data)) m saved) [] (read m.type.empty data)
  | updateData {data : List (String × Json)} {m : Model} {saved : Saved} :
      Enters (step (.updateData (.obj data)) m saved) [] (read m data)
  | setPointer {pointer : String} {v : Json} {tokens : List String} {m : Model} {saved : Saved} :
      Pointer.target pointer = .ok tokens →
      Enters (step (.setPointer pointer v) m saved) [] (edit pointer (.set v) m tokens)
  | unsetPointer {pointer : String} {tokens : List String} {m : Model} {saved : Saved} :
      Pointer.target pointer = .ok tokens →
      Enters (step (.unsetPointer pointer) m saved) [] (edit pointer .unset m tokens)
  | withModel {name : String} {body : List ModelStep} {m nested : Model} {saved : Saved} :
      m.model? name = some nested → Enters (step (.withModel name body) m saved) [name] (steps body nested saved)
  | withSequence {name : String} {body : List SequenceStep} {m : Model} {nested : Sequence} {saved : Saved} :
      m.sequence? name = some nested →
      Enters (step (.withSequence name body) m saved) [name] (sequenceSteps body nested saved)
  | sequenceFirst {todo : SequenceStep} {rest : List SequenceStep} {s : Sequence} {saved : Saved} :
      Enters (sequenceSteps (todo :: rest) s saved) [] (sequenceStep todo s saved)
  | sequenceLater {todo : SequenceStep} {rest : List SequenceStep} {s after : Sequence} {saved between : Saved}
      {answer : Answer} : todo.run s saved = (.ok (answer, after), between) →
      Enters (sequenceSteps (todo :: rest) s saved) [] (sequenceSteps rest after between)
  | put {todo : SequenceStep} {s : Sequence} {saved : Saved} {inputs : List Element} {placement : Placement} :
      todo.inputs.mapM (Input.forSequence s saved) = .ok inputs → todo.placement? s = some placement →
      Enters (sequenceStep todo s saved) [] (put s.type placement inputs)
  | updateAt {i : Nat} {body : List ModelStep} {s : Sequence} {nested : Model} {saved : Saved} :
      s.get? i = some (.model nested) →
      Enters (sequenceStep (.updateAt i body) s saved) [toString i] (steps body nested saved)
  | editField {pointer name : String} {v : Json} {m : Model} {slot : Nat} {field : Field}
      {current : Option FieldValue} : m.slotOf? name = some (slot, field, current) →
      Enters (edit pointer (.set v) m [name]) [name] (fill field.kind current (.plain v))
  | editModel {pointer name next : String} {rest : List String} {change : Edit} {m nested : Model} :
      m.model? name = some nested →
      Enters (edit pointer change m (name :: next :: rest)) [name] (edit pointer change nested (next :: rest))
  | editInSequence {pointer name next : String} {rest : List String} {change : Edit} {m : Model} {nested : Sequence} :
      m.sequence? name = some nested →
      Enters (edit pointer change m (name :: next :: rest)) [name] (editSequence pointer change nested (next :: rest))
  | editPosition {pointer token : String} {v : Json} {s : Sequence} {i : Nat} :
      Pointer.index? s.size token = some i → ¬ (s.size ≤ i ∧ Memory.growthLimit ≤ i) →
      Enters (editSequence pointer (.set v) s [token]) [] (Operation.put s.type (.atIndex s i) [.plain v])
  | editElement {pointer token next : String} {rest : List String} {change : Edit} {s : Sequence} {nested : Model}
      {i : Nat} : Pointer.index? s.size token = some i → s.get? i = some (.model nested) →
      Enters (editSequence pointer change s (token :: next :: rest)) [toString i]
        (edit pointer change nested (next :: rest))
  | member {m : Model} {data : List (String × Json)} {k : Nat} {field : Field} {current : Option FieldValue} {v : Json}
      {staged : List (Option FieldValue)} : m.type.fields[k]? = some field → m.values[k]? = some current →
      mergeFields (m.type.fields.take k) (m.values.take k) data = .ok staged → data.lookup field.name = some v →
      Enters (read m data) [field.name] (fill field.kind current (.plain v))
  | merge {type : ModelType} {m : Model} {data : List (String × Json)} :
      Enters (fill (.object type) (some (.model m)) (.plain (.obj data))) [] (read m data)
  | make {type : ModelType} {current : Option FieldValue} {data : List (String × Json)} :
      (∀ m, current ≠ some (.model m)) →
      Enters (fill (.object type) current (.plain (.obj data))) [] (read type.empty data)
  | remake {type : ModelType} {current : Option FieldValue} {m : Model} : ¬ m.type.same type →
      Enters (fill (.object type) current (.model m)) [] (read type.empty (snapshot m.type.fields m.values))
  | makeSequence {type : SequenceType} {current : Option FieldValue} {items : List Json} :
      Enters (fill (.array type) current (.plain (.arr items))) [] (Operation.put type .whole (items.map .plain))
  | remakeSequence {type : SequenceType} {current : Option FieldValue} {s : Sequence} : ¬ s.type.same type →
      Enters (fill (.array type) current (.sequence s)) [] (Operation.put type .whole ((listing s.items).map .plain))
  | place {type : SequenceType} {placement : Placement} {before rest : List Element} {input : Element} :
      (∀ e ∈ before, ∃ staged, type.stage e = .ok staged) →
      Enters (Operation.put type placement (before ++ input :: rest)) [toString (placement.start + before.length)]
        (place type input)
  | makeElement {type : SequenceType} {element : ModelType} {data : List (String × Json)} :
      type.element = some element → Enters (Operation.place type (.plain (.obj data))) [] (read element.empty data)
  | remakeElement {type : SequenceType} {element : ModelType} {m : Model} : type.element = some element →
      ¬ m.type.same element →
      Enters (Operation.place type (.model m)) [] (read element.empty (snapshot m.type.fields m.values))

end Operation

theorem Outcome.map_snd_of {β : Type} (saved : Saved) (answer : β → Answer) (result : Except Error β) :
    (Outcome.of saved answer result).1.map (·.2) = result := by
  cases result <;> rfl

section Runs

variable [Memory] {s : Sequence} {saved : Saved} {todo : SequenceStep} {placement : Placement} {inputs : List Element}

/-- A step that writes inputs to a sequence makes what putting them in their places makes. -/
theorem SequenceStep.run_eq_put (hplacement : todo.placement? s = some placement)
    (hinputs : todo.inputs.mapM (Input.forSequence s saved) = .ok inputs) :
    (todo.run s saved).1.map (·.2) = s.type.put placement inputs := by
  cases todo with
  | append input =>
    obtain rfl := Option.some.inj hplacement
    obtain ⟨e, he, rfl⟩ := mapM_singleton_eq_ok.mp hinputs
    rw [run, Outcome.map_snd_of, he, ← Sequence.append_eq_put]
    rfl
  | push all =>
    obtain rfl := Option.some.inj hplacement
    rw [run, Outcome.map_snd_of, show all.mapM _ = _ from hinputs, ← Sequence.push_eq_put]
    rfl
  | prepend all =>
    obtain rfl := Option.some.inj hplacement
    rw [run, Outcome.map_snd_of, show all.mapM _ = _ from hinputs, ← Sequence.prepend_eq_put]
    rfl
  | setAt i input =>
    rw [placement?] at hplacement
    split_ifs at hplacement with hlimit
    obtain rfl := Option.some.inj hplacement
    obtain ⟨e, he, rfl⟩ := mapM_singleton_eq_ok.mp hinputs
    rw [run, Outcome.map_snd_of, he, ← Sequence.setAt_eq_put hlimit]
    rfl
  | spliceAt start count all =>
    obtain rfl := Option.some.inj hplacement
    rw [run, ← Sequence.spliceAt_eq_put, show all.mapM _ = _ from hinputs]
    change Except.map _ (Except.map _ (s.spliceAt start count inputs)) = _
    cases s.spliceAt start count inputs <;> rfl
  | _ => cases hplacement

/-- The inputs of a step stand in the array to be checked at the indices that they are reported under. -/
theorem SequenceStep.fits_placement (hplacement : todo.placement? s = some placement) :
    placement.Fits todo.inputs.length := by
  cases todo with
  | append input | push all =>
    obtain rfl := Option.some.inj hplacement
    exact Placement.fits_atEnd s _
  | prepend all =>
    obtain rfl := Option.some.inj hplacement
    exact Placement.fits_atFront s _
  | setAt i input =>
    rw [placement?] at hplacement
    split_ifs at hplacement with hlimit
    obtain rfl := Option.some.inj hplacement
    exact Placement.fits_atIndex s i
  | spliceAt start count all =>
    obtain rfl := Option.some.inj hplacement
    exact Placement.fits_inPlaceOf s start count _
  | _ => cases hplacement

end Runs

namespace Operation

variable [Memory] {outer inner : Operation} {tokens : List String} {cause e : Error}

/-- Inputs that are put into a sequence are counted by the array that is to be checked. -/
theorem Enters.fits {type : SequenceType} {placement : Placement} {elements : List Element}
    (h : outer.Enters tokens (.put type placement elements)) : placement.Fits elements.length := by
  cases h with
  | put hinputs hplacement =>
    rw [← (forall₂_of_mapM_eq_ok hinputs).length_eq]
    exact SequenceStep.fits_placement hplacement
  | editPosition => exact Placement.fits_atIndex _ _
  | makeSequence | remakeSequence => exact Placement.fits_whole _

theorem fails_steps_cons {todo : ModelStep} {rest : List ModelStep} {m : Model} {saved : Saved} :
    (steps (todo :: rest) m saved).Fails e ↔ (step todo m saved).Fails e ∨
      ∃ answer after between, todo.run m saved = (.ok (answer, after), between) ∧
        (steps rest after between).Fails e := by
  simp only [Fails, runModel]
  rcases todo.run m saved with ⟨result, between⟩
  cases result with
  | error cause => simp
  | ok result =>
    obtain ⟨answer, after⟩ := result
    simp [map_eq_error]

theorem fails_sequenceSteps_cons {todo : SequenceStep} {rest : List SequenceStep} {s : Sequence} {saved : Saved} :
    (sequenceSteps (todo :: rest) s saved).Fails e ↔ (sequenceStep todo s saved).Fails e ∨
      ∃ answer after between, todo.run s saved = (.ok (answer, after), between) ∧
        (sequenceSteps rest after between).Fails e := by
  simp only [Fails, runSequence]
  rcases todo.run s saved with ⟨result, between⟩
  cases result with
  | error cause => simp
  | ok result =>
    obtain ⟨answer, after⟩ := result
    simp [map_eq_error]

/-- A failure of what is entered is one of the operation, with the token before the positions. -/
theorem Enters.fails (h : outer.Enters tokens inner) (hfails : inner.Fails cause) :
    outer.Fails (cause.along tokens) := by
  cases h with
  | first => exact fails_steps_cons.mpr (.inl hfails)
  | later hrun => exact fails_steps_cons.mpr (.inr ⟨_, _, _, hrun, hfails⟩)
  | @set name input m saved slot field current value hslot hinput =>
    rw [Fails, ModelStep.run, Outcome.of, map_eq_error, hinput]
    exact (Model.set_eq_assign value).trans (Model.assign_eq_error hslot hfails)
  | @replace name input m saved slot field current value hslot hinput =>
    rw [Fails, ModelStep.run, Outcome.of, map_eq_error, hinput]
    exact (Model.replace_eq_assign value).trans (Model.assign_eq_error hslot hfails)
  | @setData data m saved =>
    rw [Fails, ModelStep.run, Outcome.of, map_eq_error]
    exact (m.type.build_eq_merge data).trans hfails
  | updateData =>
    rw [Fails, ModelStep.run, Outcome.of, map_eq_error]
    exact hfails
  | setPointer htarget | unsetPointer htarget =>
    rw [Fails, ModelStep.run, Outcome.of, map_eq_error]
    exact bind_eq_error.mpr (.inr ⟨_, htarget, hfails⟩)
  | withModel hnested =>
    rw [Fails, ModelStep.run, hnested]
    exact Model.withModel_eq_error hnested (map_eq_error.mpr hfails)
  | withSequence hnested =>
    rw [Fails, ModelStep.run, hnested]
    exact Model.withSequence_eq_error hnested (map_eq_error.mpr hfails)
  | sequenceFirst => exact fails_sequenceSteps_cons.mpr (.inl hfails)
  | sequenceLater hrun => exact fails_sequenceSteps_cons.mpr (.inr ⟨_, _, _, hrun, hfails⟩)
  | put hinputs hplacement =>
    have hrun := SequenceStep.run_eq_put hplacement hinputs
    exact map_eq_error.mp (hrun.trans hfails)
  | @updateAt i body s nested saved hnested =>
    rw [Fails, SequenceStep.run, hnested, Error.along_index]
    exact Sequence.updateAt_eq_error hnested (map_eq_error.mpr hfails)
  | @editField pointer name v m slot field current hslot =>
    rw [Fails, Model.edit, Model.set_eq_assign]
    exact Model.assign_eq_error hslot hfails
  | editModel hnested =>
    rw [Fails, Model.edit, Model.get?_of_model? hnested]
    exact map_eq_error.mpr (Model.withModel_eq_error hnested (bind_eq_error.mpr (.inl hfails)))
  | editInSequence hnested =>
    rw [Fails, Model.edit, Model.get?_of_sequence? hnested]
    exact map_eq_error.mpr (Model.withSequence_eq_error hnested (bind_eq_error.mpr (.inl hfails)))
  | @editPosition pointer token v s i hi hlimit =>
    refine bind_eq_error.mpr (.inr ⟨i, Pointer.position_eq_ok.mpr hi, ?_⟩)
    exact (Sequence.setAt_eq_put hlimit _).trans hfails
  | @editElement pointer token next rest change s nested i hi hnested =>
    rw [Error.along_index]
    refine bind_eq_error.mpr (.inr ⟨i, Pointer.position_eq_ok.mpr hi, ?_⟩)
    rw [hnested]
    exact map_eq_error.mpr (Sequence.updateAt_eq_error hnested (bind_eq_error.mpr (.inl hfails)))
  | @member m data k field current v staged hfield hcurrent hstaged hv =>
    obtain ⟨type, values⟩ := m
    rw [Fails, Model.merge]
    refine bind_eq_error.mpr (.inl ?_)
    exact mergeFields_eq_error.mpr ⟨k, field, current, v, staged, cause, hfield, hcurrent, hstaged, hv, hfails, rfl⟩
  | merge =>
    rw [Fails, FieldKind.stage, mergeValue, map_eq_error]
    exact hfails
  | make hcurrent =>
    rw [Fails, FieldKind.stage, mergeValue_of_ne_model hcurrent, FieldKind.build, map_eq_error,
      ModelType.build_eq_merge]
    exact hfails
  | @remake type current m htype =>
    rw [Fails, FieldKind.stage, if_neg htype, map_eq_error, m.toJson_eq, ModelType.create, ModelType.build_eq_merge]
    exact hfails
  | makeSequence =>
    rw [Fails, FieldKind.stage, mergeValue_array, FieldKind.build, map_eq_error, SequenceType.build_eq_put]
    exact hfails
  | @remakeSequence type current s htype =>
    rw [Fails, FieldKind.stage, if_neg htype, map_eq_error, SequenceType.create, SequenceType.build_eq_put]
    exact hfails
  | place hbefore =>
    rw [Error.along_index]
    exact SequenceType.put_eq_error hbefore hfails _
  | @makeElement type element data helement =>
    rw [Fails, SequenceType.stage, helement, buildElement, map_eq_error, ModelType.build_eq_merge]
    exact hfails
  | @remakeElement type element m helement htype =>
    rw [Fails, SequenceType.stage, helement]
    dsimp only
    rw [if_neg htype, map_eq_error, m.toJson_eq, ModelType.create, ModelType.build_eq_merge]
    exact hfails

end Operation
end SchemaBound
