import SchemaBound.Proofs.Program.Failures
import SchemaBound.Proofs.Program.Outcomes

/-! Origins of failures. Every violation that an operation reports was found by the type of an instance, in a value for
that instance, or came with an input; from there to the operation it was handed on through the instances around. -/
namespace SchemaBound
open Success Failure

namespace Operation

/-- The type of the instance that the operation is about. -/
def type? : Operation → Option Blueprint
  | .steps _ m _ | .step _ m _ | .edit _ _ m _ | .read m _ => some (.model m.type)
  | .sequenceSteps _ s _ | .sequenceStep _ s _ | .editSequence _ _ s _ => some (.sequence s.type)
  | .put type _ _ => some (.sequence type)
  | .fill _ _ _ | .place _ _ => none

/-- The inputs that the operation writes. -/
def inputs : Operation → List Input
  | .step todo _ _ => todo.inputs
  | .sequenceStep todo _ _ => todo.inputs
  | _ => []

variable [Memory]

/-- The operation fails with violations that it has from nothing that it enters: its own type finds them in a value, or
they came with an input. -/
inductive Raises (op : Operation) (violations : List Violation) : Prop
  | refused {type : Blueprint} {v : Json} : op.Fails (.validation violations) → op.type? = some type →
      type.check v = .error violations → Raises op violations
  | handed : op.Fails (.validation violations) → .given (.error (.validation violations)) ∈ op.inputs →
      Raises op violations

/-- The violations in the error, if there are any, are the operation's own. -/
def Owns (op : Operation) (e : Error) : Prop := ∀ violations, e = .validation violations → op.Raises violations

/-- The failure is that of an operation that is entered. -/
def PassesOn (op : Operation) (e : Error) : Prop :=
  ∃ tokens inner cause, op.Enters tokens inner ∧ inner.Fails cause ∧ e = cause.along tokens

variable {op : Operation} {e : Error}

theorem owns_of_ne (h : ∀ violations, e ≠ .validation violations) : op.Owns e :=
  fun violations he => absurd he (h violations)

theorem owns_of_type {type : Blueprint} (hfails : op.Fails e) (htype : op.type? = some type) (h : type.Owns e) :
    op.Owns e := by
  rintro violations rfl
  obtain ⟨v, hcheck⟩ := h violations rfl
  exact .refused hfails htype hcheck

theorem owns_of_handed (hfails : op.Fails e)
    (h : ∀ violations, e = .validation violations → .given (.error (.validation violations)) ∈ op.inputs) :
    op.Owns e := by
  rintro violations rfl
  exact .handed hfails (h violations rfl)

theorem passesOn_of_enters {inner : Operation} (h : op.Enters [] inner) (hfails : inner.Fails e) : op.PassesOn e :=
  ⟨[], inner, e, h, hfails, rfl⟩

theorem passesOn_under {inner : Operation} {name : String} {cause : Error} (h : op.Enters [name] inner)
    (hfails : inner.Fails cause) : op.PassesOn (cause.under (Pointer.child name)) :=
  ⟨[name], inner, cause, h, hfails, rfl⟩

theorem passesOn_index {inner : Operation} {i : Nat} {cause : Error} (h : op.Enters [toString i] inner)
    (hfails : inner.Fails cause) : op.PassesOn (cause.under (elementPointer i)) :=
  ⟨[toString i], inner, cause, h, hfails, (Error.along_index i cause).symm⟩

end Operation

section Inputs

variable {saved : Saved} {violations : List Violation}

theorem Input.eq_given_of_forModel {m : Model} {input : Input}
    (h : input.forModel m saved = .error (.validation violations)) :
    input = .given (.error (.validation violations)) := by
  unfold forModel at h
  split at h
  · rw [h]
  · split at h <;> cases h
  · split at h <;> cases h
  · cases h

theorem Input.eq_given_of_forSequence {s : Sequence} {input : Input}
    (h : input.forSequence s saved = .error (.validation violations)) :
    input = .given (.error (.validation violations)) := by
  unfold forSequence at h
  split at h
  · cases h
  · cases h
  · cases h
  · rw [Except.error.inj h]
  · split at h <;> cases h
  · cases h
  · split at h <;> cases h

/-- Where an input is not there, the step fails for the same reason. -/
theorem SequenceStep.run_eq_error [Memory] {s : Sequence} {todo : SequenceStep} {e : Error}
    (h : todo.inputs.mapM (Input.forSequence s saved) = .error e) : (todo.run s saved).1 = .error e := by
  have hsingle {input : Input} (h : [input].mapM (Input.forSequence s saved) = .error e) :
      input.forSequence s saved = .error e := by
    obtain ⟨_, hmem, h⟩ := exists_of_mapM_eq_error h
    rwa [List.mem_singleton.mp hmem] at h
  cases todo with
  | append input | setAt i input =>
    rw [run, Outcome.of, hsingle h]
    rfl
  | push all | prepend all =>
    rw [run, Outcome.of, show all.mapM _ = _ from h]
    rfl
  | spliceAt start count all =>
    rw [run, show all.mapM _ = _ from h]
    rfl
  | _ => cases h

end Inputs

section Others

variable {e : Error}

theorem Pointer.ne_validation_of_target {pointer : String} (h : target pointer = .error e)
    (violations : List Violation) : e ≠ .validation violations := by
  rintro rfl
  unfold target at h
  split_ifs at h with hroot
  · cases h
  · split at h <;> cases h

theorem Pointer.ne_validation_of_position {pointer token : String} {length : Nat}
    (h : position pointer token length = .error e) (violations : List Violation) : e ≠ .validation violations := by
  rintro rfl
  unfold position at h
  split_ifs at h with hdash hzeros
  · cases h
  · split at h <;> cases h

theorem Saved.ne_validation_of_model {saved : Saved} {name : String} (h : saved.model name = .error e)
    (violations : List Violation) : e ≠ .validation violations := by
  rintro rfl
  unfold model at h
  split at h <;> cases h

theorem Saved.ne_validation_of_sequence {saved : Saved} {name : String} (h : saved.sequence name = .error e)
    (violations : List Violation) : e ≠ .validation violations := by
  rintro rfl
  unfold sequence at h
  split at h <;> cases h

theorem Outcome.passOver_ne_error {β : Type} (before : β) (outcome : Outcome Answer β) :
    (outcome.passOver before).1 ≠ .error e := by
  obtain ⟨result, saved⟩ := outcome
  cases result <;> simp [passOver]

theorem error_of_returned {β : Type} {x : Except Error β} (h : (do return ((), ← x)) = Except.error e) :
    x = .error e := by
  rcases bind_eq_error.mp h with hx | ⟨_, _, hpure⟩
  · exact hx
  · exact absurd hpure pure_ne_error

end Others

namespace Operation

variable [Memory] {saved : Saved} {e : Error}

/-- A failing assignment passes on what was wrong with the value, or it is the model's own failure. -/
private theorem explained_assign {op : Operation} {m : Model} {name : String}
    {stage : Field → Option FieldValue → Except Error FieldValue} (hfails : op.Fails e)
    (htype : op.type? = some (.model m.type)) (h : m.assign name stage = .error e)
    (henters : ∀ {slot field current}, m.slotOf? name = some (slot, field, current) →
      ∃ inner : Operation, op.Enters [name] inner ∧ ∀ cause, stage field current = .error cause → inner.Fails cause) :
    op.PassesOn e ∨ op.Owns e := by
  rcases Model.exists_of_assign_eq_error h with ⟨slot, field, current, cause, hslot, hcause, rfl⟩ | howns
  · obtain ⟨inner, hinner, hinnerFails⟩ := henters hslot
    exact .inl (passesOn_under hinner (hinnerFails cause hcause))
  · exact .inr (owns_of_type hfails htype howns)

section Nested

variable {α : Type} {op : Operation}

/-- A failing operation on a nested model passes on why that failed, or it is the outer model's own failure. -/
private theorem explained_withModel {m : Model} {name : String} {f : Model → Except Error (α × Model)}
    (hfails : op.Fails e) (htype : op.type? = some (.model m.type)) (h : m.withModel name f = .error e)
    (henters : ∀ {nested cause}, m.model? name = some nested → f nested = .error cause →
      ∃ inner : Operation, op.Enters [name] inner ∧ inner.Fails cause) : op.PassesOn e ∨ op.Owns e := by
  rcases Model.exists_of_withModel_eq_error h with ⟨nested, cause, hnested, hcause, rfl⟩ | howns
  · obtain ⟨inner, hinner, hinnerFails⟩ := henters hnested hcause
    exact .inl (passesOn_under hinner hinnerFails)
  · exact .inr (owns_of_type hfails htype howns)

private theorem explained_withSequence {m : Model} {name : String} {f : Sequence → Except Error (α × Sequence)}
    (hfails : op.Fails e) (htype : op.type? = some (.model m.type)) (h : m.withSequence name f = .error e)
    (henters : ∀ {nested cause}, m.sequence? name = some nested → f nested = .error cause →
      ∃ inner : Operation, op.Enters [name] inner ∧ inner.Fails cause) : op.PassesOn e ∨ op.Owns e := by
  rcases Model.exists_of_withSequence_eq_error h with ⟨nested, cause, hnested, hcause, rfl⟩ | howns
  · obtain ⟨inner, hinner, hinnerFails⟩ := henters hnested hcause
    exact .inl (passesOn_under hinner hinnerFails)
  · exact .inr (owns_of_type hfails htype howns)

private theorem explained_updateAt {s : Sequence} {i : Nat} {f : Model → Except Error (α × Model)}
    (hfails : op.Fails e) (htype : op.type? = some (.sequence s.type)) (h : s.updateAt i f = .error e)
    (henters : ∀ {nested cause}, s.get? i = some (.model nested) → f nested = .error cause →
      ∃ inner : Operation, op.Enters [toString i] inner ∧ inner.Fails cause) : op.PassesOn e ∨ op.Owns e := by
  rcases Sequence.exists_of_updateAt_eq_error h with ⟨nested, cause, hnested, hcause, rfl⟩ | howns
  · obtain ⟨inner, hinner, hinnerFails⟩ := henters hnested hcause
    exact .inl (passesOn_index hinner hinnerFails)
  · exact .inr (owns_of_type hfails htype howns)

end Nested

/-- An input that is not there is why the step that writes it fails. -/
private theorem owns_of_forModel {op : Operation} {m : Model} {input : Input} (hfails : op.Fails e)
    (hinputs : op.inputs = [input]) (h : input.forModel m saved = .error e) : op.Owns e := by
  refine owns_of_handed hfails ?_
  rintro violations rfl
  rw [hinputs, Input.eq_given_of_forModel h]
  exact List.mem_singleton_self _

theorem explained_step {todo : ModelStep} {m : Model} (hfails : (step todo m saved).Fails e) :
    (step todo m saved).PassesOn e ∨ (step todo m saved).Owns e := by
  have h : (todo.run m saved).1 = .error e := hfails
  cases todo with
  | set name input =>
    rw [ModelStep.run, Outcome.of, map_eq_error] at h
    rcases bind_eq_error.mp h with hinput | ⟨value, hvalue, hset⟩
    · exact .inr (owns_of_forModel hfails rfl hinput)
    · exact explained_assign hfails rfl hset fun hslot => ⟨_, .set hslot hvalue, fun _ hcause => hcause⟩
  | replace name input =>
    rw [ModelStep.run, Outcome.of, map_eq_error] at h
    rcases bind_eq_error.mp h with hinput | ⟨value, hvalue, hreplace⟩
    · exact .inr (owns_of_forModel hfails rfl hinput)
    · exact explained_assign hfails rfl hreplace fun hslot => ⟨_, .replace hslot hvalue, fun _ hcause => hcause⟩
  | unset name =>
    rw [ModelStep.run, Outcome.of, map_eq_error] at h
    exact .inr (owns_of_type hfails rfl (Model.owns_of_unset_eq_error h))
  | setData data =>
    rw [ModelStep.run, Outcome.of, map_eq_error] at h
    cases data with
    | obj data => exact .inl (passesOn_of_enters .setData ((m.type.build_eq_merge data).symm.trans h))
    | _ =>
      obtain rfl := Except.error.inj h
      exact .inr (owns_of_ne (by simp))
  | updateData data =>
    rw [ModelStep.run, Outcome.of, map_eq_error] at h
    cases data with
    | obj data => exact .inl (passesOn_of_enters .updateData h)
    | _ =>
      obtain rfl := Except.error.inj h
      exact .inr (owns_of_ne (by simp))
  | setPointer pointer v =>
    rw [ModelStep.run, Outcome.of, map_eq_error] at h
    rcases bind_eq_error.mp h with htarget | ⟨tokens, htokens, hedit⟩
    · exact .inr (owns_of_ne (Pointer.ne_validation_of_target htarget))
    · exact .inl (passesOn_of_enters (.setPointer htokens) hedit)
  | unsetPointer pointer =>
    rw [ModelStep.run, Outcome.of, map_eq_error] at h
    rcases bind_eq_error.mp h with htarget | ⟨tokens, htokens, hedit⟩
    · exact .inr (owns_of_ne (Pointer.ne_validation_of_target htarget))
    · exact .inl (passesOn_of_enters (.unsetPointer htokens) hedit)
  | validate candidate =>
    rw [ModelStep.run, map_eq_error, Model.validate] at h
    split at h
    · cases h
    · rename_i violations hcheck
      obtain rfl := Except.error.inj h
      exact .inr (owns_of_type hfails rfl fun _ hsame => ⟨_, Error.validation.inj hsame ▸ hcheck⟩)
  | integers =>
    rw [ModelStep.run] at h
    split at h
    · cases h
    · obtain rfl := Except.error.inj h
      exact .inr (owns_of_ne (by simp))
  | look | clear | save name =>
    rw [ModelStep.run] at h
    cases h
  | restore name =>
    rw [ModelStep.run, Outcome.of, map_eq_error] at h
    exact .inr (owns_of_ne (Saved.ne_validation_of_model h))
  | compare name =>
    rw [ModelStep.run, map_eq_error] at h
    exact .inr (owns_of_ne (Saved.ne_validation_of_model h))
  | withModel name body =>
    rw [ModelStep.run] at h
    cases hnested : m.model? name with
    | none =>
      rw [hnested] at h
      exact explained_withModel hfails rfl h fun hsome _ =>
        absurd (hnested.symm.trans hsome) (Option.some_ne_none _).symm
    | some nested =>
      rw [hnested] at h
      exact explained_withModel hfails rfl h fun _ hcause => ⟨_, .withModel hnested, map_eq_error.mp hcause⟩
  | withSequence name body =>
    rw [ModelStep.run] at h
    cases hnested : m.sequence? name with
    | none =>
      rw [hnested] at h
      exact explained_withSequence hfails rfl h fun hsome _ =>
        absurd (hnested.symm.trans hsome) (Option.some_ne_none _).symm
    | some nested =>
      rw [hnested] at h
      exact explained_withSequence hfails rfl h fun _ hcause => ⟨_, .withSequence hnested, map_eq_error.mp hcause⟩
  | attempt todo =>
    rw [ModelStep.run_attempt] at h
    exact absurd h (Outcome.passOver_ne_error m _)

theorem explained_sequenceStep {todo : SequenceStep} {s : Sequence} (hfails : (sequenceStep todo s saved).Fails e) :
    (sequenceStep todo s saved).PassesOn e ∨ (sequenceStep todo s saved).Owns e := by
  have h : (todo.run s saved).1 = .error e := hfails
  have hwriting (hplaced : ∀ inputs, todo.inputs.mapM (Input.forSequence s saved) = .ok inputs →
      todo.placement? s = none → ∀ violations, e ≠ .validation violations) :
      (sequenceStep todo s saved).PassesOn e ∨ (sequenceStep todo s saved).Owns e := by
    cases hinputs : todo.inputs.mapM (Input.forSequence s saved) with
    | error cause =>
      obtain rfl := Except.error.inj (h.symm.trans (SequenceStep.run_eq_error hinputs))
      refine .inr (owns_of_handed hfails ?_)
      rintro violations rfl
      obtain ⟨input, hinput, hcause⟩ := exists_of_mapM_eq_error hinputs
      exact Input.eq_given_of_forSequence hcause ▸ hinput
    | ok inputs =>
      cases hplacement : todo.placement? s with
      | none => exact .inr (owns_of_ne (hplaced inputs hinputs hplacement))
      | some placement =>
        have hput := SequenceStep.run_eq_put hplacement hinputs
        exact .inl (passesOn_of_enters (.put hinputs hplacement) (hput.symm.trans (map_eq_error.mpr h)))
  cases todo with
  | append input | push inputs | prepend inputs | spliceAt start count inputs =>
    exact hwriting fun _ _ hplacement => absurd hplacement (Option.some_ne_none _)
  | setAt i input =>
    refine hwriting fun inputs hinputs hplacement => ?_
    rw [SequenceStep.placement?] at hplacement
    split_ifs at hplacement with hlimit
    obtain ⟨value, hvalue, rfl⟩ := mapM_singleton_eq_ok.mp hinputs
    rw [SequenceStep.run, Outcome.of, hvalue, map_eq_error] at h
    have hsetAt : s.setAt i value = .error e := h
    rw [Sequence.setAt, if_pos hlimit] at hsetAt
    obtain rfl := Except.error.inj hsetAt
    simp
  | removeLast =>
    rw [SequenceStep.run, map_eq_error] at h
    exact .inr (owns_of_type hfails rfl (Sequence.owns_of_removeLast_eq_error h))
  | removeFirst =>
    rw [SequenceStep.run, map_eq_error] at h
    exact .inr (owns_of_type hfails rfl (Sequence.owns_of_removeFirst_eq_error h))
  | look | clear | save name =>
    rw [SequenceStep.run] at h
    cases h
  | restore name =>
    rw [SequenceStep.run, Outcome.of, map_eq_error] at h
    exact .inr (owns_of_ne (Saved.ne_validation_of_sequence h))
  | compare name =>
    rw [SequenceStep.run, map_eq_error] at h
    exact .inr (owns_of_ne (Saved.ne_validation_of_sequence h))
  | updateAt i body =>
    rw [SequenceStep.run] at h
    split at h
    · rename_i nested hnested
      exact explained_updateAt hfails rfl h fun _ hcause => ⟨_, .updateAt hnested, map_eq_error.mp hcause⟩
    · rename_i hnone
      exact explained_updateAt hfails rfl h fun hsome _ => absurd hsome (hnone _)
  | attempt todo =>
    rw [SequenceStep.run_attempt] at h
    exact absurd h (Outcome.passOver_ne_error s _)

theorem explained_edit {pointer : String} {change : Edit} {m : Model} {tokens : List String}
    (hfails : (edit pointer change m tokens).Fails e) :
    (edit pointer change m tokens).PassesOn e ∨ (edit pointer change m tokens).Owns e := by
  have h : m.edit pointer change tokens = .error e := hfails
  match tokens, h with
  | [], h =>
    rw [Model.edit] at h
    obtain rfl := Except.error.inj h
    exact .inr (owns_of_ne (by simp))
  | [name], h =>
    cases change with
    | set v =>
      rw [Model.edit] at h
      exact explained_assign hfails rfl h fun hslot => ⟨_, .editField hslot, fun _ hcause => hcause⟩
    | unset =>
      rw [Model.edit] at h
      exact .inr (owns_of_type hfails rfl (Model.owns_of_unset_eq_error h))
  | name :: next :: rest, h =>
    rw [Model.edit] at h
    split at h
    · exact explained_withModel hfails rfl (map_eq_error.mp h) fun hnested hcause =>
        ⟨_, .editModel hnested, error_of_returned hcause⟩
    · exact explained_withSequence hfails rfl (map_eq_error.mp h) fun hnested hcause =>
        ⟨_, .editInSequence hnested, error_of_returned hcause⟩
    · split at h
      · obtain rfl := Except.error.inj h
        exact .inr (owns_of_ne (by simp))
      · obtain rfl := Except.error.inj h
        exact .inr (owns_of_ne (by simp))

theorem explained_editSequence {pointer : String} {change : Edit} {s : Sequence} {tokens : List String}
    (hfails : (editSequence pointer change s tokens).Fails e) :
    (editSequence pointer change s tokens).PassesOn e ∨ (editSequence pointer change s tokens).Owns e := by
  have h : s.edit pointer change tokens = .error e := hfails
  match tokens, h with
  | [], h =>
    rw [Sequence.edit] at h
    obtain rfl := Except.error.inj h
    exact .inr (owns_of_ne (by simp))
  | [token], h =>
    rw [Sequence.edit] at h
    rcases bind_eq_error.mp h with hposition | ⟨i, hi, h⟩
    · exact .inr (owns_of_ne (Pointer.ne_validation_of_position hposition))
    rw [Pointer.position_eq_ok] at hi
    cases change with
    | set v =>
      by_cases hlimit : s.size ≤ i ∧ Memory.growthLimit ≤ i
      · have hsetAt : s.setAt i (.plain v) = .error e := h
        rw [Sequence.setAt, if_pos hlimit] at hsetAt
        obtain rfl := Except.error.inj hsetAt
        exact .inr (owns_of_ne (by simp))
      · exact .inl (passesOn_of_enters (.editPosition hi hlimit) ((Sequence.setAt_eq_put hlimit _).symm.trans h))
    | unset =>
      dsimp only at h
      split at h
      · rw [Sequence.spliceAt_eq_put] at h
        rcases SequenceType.exists_of_put_eq_error h with ⟨before, input, rest, _, hnil, _⟩ | howns
        · simp at hnil
        · exact .inr (owns_of_type hfails rfl howns)
      · obtain rfl := Except.error.inj h
        exact .inr (owns_of_ne (by simp))
  | token :: next :: rest, h =>
    rw [Sequence.edit] at h
    rcases bind_eq_error.mp h with hposition | ⟨i, hi, h⟩
    · exact .inr (owns_of_ne (Pointer.ne_validation_of_position hposition))
    rw [Pointer.position_eq_ok] at hi
    split at h
    · exact explained_updateAt hfails rfl (map_eq_error.mp h) fun hnested hcause =>
        ⟨_, .editElement hi hnested, error_of_returned hcause⟩
    · obtain rfl := Except.error.inj h
      exact .inr (owns_of_ne (by simp))

theorem explained_read {m : Model} {data : List (String × Json)} (hfails : (read m data).Fails e) :
    (read m data).PassesOn e ∨ (read m data).Owns e := by
  obtain ⟨type, values⟩ := m
  have h : Model.merge ⟨type, values⟩ data = .error e := hfails
  rw [Model.merge] at h
  rcases bind_eq_error.mp h with hmerge | ⟨staged, _, hcommit⟩
  · obtain ⟨k, field, current, v, staged, cause, hfield, hcurrent, hstaged, hv, hcause, rfl⟩ :=
      mergeFields_eq_error.mp hmerge
    exact .inl (passesOn_under (.member hfield hcurrent hstaged hv) hcause)
  · exact .inr (owns_of_type hfails rfl (ModelType.owns_of_commit hcommit))

private theorem passesOn_build {op : Operation} {kind : FieldKind} {v : Json} (h : kind.build v = .error e)
    (hmodel : ∀ type data, kind = .object type → v = .obj data → op.Enters [] (read type.empty data))
    (hsequence : ∀ type items, kind = .array type → v = .arr items →
      op.Enters [] (put type .whole (items.map .plain))) : op.PassesOn e := by
  by_cases hobject : ∃ type data, kind = .object type ∧ v = .obj data
  · obtain ⟨type, data, rfl, rfl⟩ := hobject
    rw [FieldKind.build, map_eq_error, ModelType.build_eq_merge] at h
    exact passesOn_of_enters (hmodel type data rfl rfl) h
  by_cases harray : ∃ type items, kind = .array type ∧ v = .arr items
  · obtain ⟨type, items, rfl, rfl⟩ := harray
    rw [FieldKind.build, map_eq_error, SequenceType.build_eq_put] at h
    exact passesOn_of_enters (hsequence type items rfl rfl) h
  · have hplain : kind.build v = .ok (.plain v) :=
      FieldKind.build.eq_3 kind v (fun type data hkind hv => hobject ⟨type, data, hkind, hv⟩)
        fun type items hkind hv => harray ⟨type, items, hkind, hv⟩
    cases hplain.symm.trans h

/-- A field has no failures of its own. -/
theorem passesOn_of_fill {kind : FieldKind} {current : Option FieldValue} {input : FieldValue}
    (h : (fill kind current input).Fails e) : (fill kind current input).PassesOn e := by
  cases input with
  | plain v =>
    have hmerge : mergeValue kind current v = .error e := h
    by_cases hread : ∃ type m data, kind = .object type ∧ current = some (.model m) ∧ v = .obj data
    · obtain ⟨type, m, data, rfl, rfl, rfl⟩ := hread
      rw [mergeValue, map_eq_error] at hmerge
      exact passesOn_of_enters .merge hmerge
    · rw [mergeValue.eq_2 kind current v fun type m data hkind hm hv => hread ⟨type, m, data, hkind, hm, hv⟩] at hmerge
      refine passesOn_build hmerge ?_ ?_
      · rintro type data rfl rfl
        exact .make fun m hm => hread ⟨type, m, data, rfl, hm, rfl⟩
      · rintro type items rfl rfl
        exact .makeSequence
  | model m =>
    have hstage : kind.stage current (.model m) = .error e := h
    cases kind with
    | object type =>
      rw [FieldKind.stage] at hstage
      split_ifs at hstage with htype
      rw [map_eq_error, m.toJson_eq, ModelType.create, ModelType.build_eq_merge] at hstage
      exact passesOn_of_enters (.remake htype) hstage
    | _ => cases hstage
  | sequence s =>
    have hstage : kind.stage current (.sequence s) = .error e := h
    cases kind with
    | array type =>
      rw [FieldKind.stage] at hstage
      split_ifs at hstage with htype
      rw [map_eq_error, SequenceType.create, SequenceType.build_eq_put] at hstage
      exact passesOn_of_enters (.remakeSequence htype) hstage
    | _ => cases hstage

theorem explained_put {type : SequenceType} {placement : Placement} {inputs : List Element}
    (hfails : (put type placement inputs).Fails e) :
    (put type placement inputs).PassesOn e ∨ (put type placement inputs).Owns e := by
  rcases SequenceType.exists_of_put_eq_error hfails with ⟨before, input, rest, cause, rfl, hbefore, hcause, rfl⟩ | howns
  · exact .inl (passesOn_index (.place hbefore) hcause)
  · exact .inr (owns_of_type hfails rfl howns)

/-- A position has no failures of its own. -/
theorem passesOn_of_place {type : SequenceType} {input : Element} (h : (place type input).Fails e) :
    (place type input).PassesOn e := by
  have hstage : type.stage input = .error e := h
  cases input with
  | plain v =>
    rw [SequenceType.stage] at hstage
    cases helement : type.element with
    | none =>
      rw [helement] at hstage
      simp [buildElement] at hstage
    | some element =>
      rw [helement] at hstage
      cases v with
      | obj data =>
        rw [buildElement, map_eq_error, ModelType.build_eq_merge] at hstage
        exact passesOn_of_enters (.makeElement helement) hstage
      | _ => simp [buildElement] at hstage
  | model m =>
    rw [SequenceType.stage] at hstage
    cases helement : type.element with
    | none =>
      rw [helement] at hstage
      cases hstage
    | some element =>
      rw [helement] at hstage
      dsimp only at hstage
      split_ifs at hstage with htype
      rw [map_eq_error, m.toJson_eq, ModelType.create, ModelType.build_eq_merge] at hstage
      exact passesOn_of_enters (.remakeElement helement htype) hstage

theorem explained_steps {body : List ModelStep} {m : Model} (h : (steps body m saved).Fails e) :
    (steps body m saved).PassesOn e := by
  cases body with
  | nil =>
    rw [Fails, runModel] at h
    cases h
  | cons todo rest =>
    rcases fails_steps_cons.mp h with hfirst | ⟨answer, after, between, hrun, hlater⟩
    · exact passesOn_of_enters .first hfirst
    · exact passesOn_of_enters (.later hrun) hlater

theorem explained_sequenceSteps {body : List SequenceStep} {s : Sequence} (h : (sequenceSteps body s saved).Fails e) :
    (sequenceSteps body s saved).PassesOn e := by
  cases body with
  | nil =>
    rw [Fails, runSequence] at h
    cases h
  | cons todo rest =>
    rcases fails_sequenceSteps_cons.mp h with hfirst | ⟨answer, after, between, hrun, hlater⟩
    · exact passesOn_of_enters .sequenceFirst hfirst
    · exact passesOn_of_enters (.sequenceLater hrun) hlater

/-- Every failure is one of an operation that is entered, or the operation's own. -/
theorem Fails.explained {op : Operation} (h : op.Fails e) : op.PassesOn e ∨ op.Owns e := by
  cases op with
  | steps body m saved => exact .inl (explained_steps h)
  | step todo m saved => exact explained_step h
  | sequenceSteps body s saved => exact .inl (explained_sequenceSteps h)
  | sequenceStep todo s saved => exact explained_sequenceStep h
  | edit pointer change m tokens => exact explained_edit h
  | editSequence pointer change s tokens => exact explained_editSequence h
  | read m data => exact explained_read h
  | fill kind current input => exact .inl (passesOn_of_fill h)
  | put type placement inputs => exact explained_put h
  | place type input => exact .inl (passesOn_of_place h)

/-- The sizes of the program, of the way to a place, and of the data that are left. -/
noncomputable def rank : Operation → Nat × Nat × Nat
  | .steps body _ _ => (sizeOf body, 0, 0)
  | .step todo _ _ => (sizeOf todo, 0, 0)
  | .sequenceSteps body _ _ => (sizeOf body, 0, 0)
  | .sequenceStep todo _ _ => (sizeOf todo, 0, 0)
  | .edit _ _ _ tokens | .editSequence _ _ _ tokens => (0, tokens.length, 0)
  | .read _ data => (0, 0, sizeOf data)
  | .fill _ _ input => (0, 0, sizeOf input.toJson)
  | .put _ _ inputs => (0, 0, sizeOf (inputs.map Element.toJson))
  | .place _ input => (0, 0, sizeOf input.toJson)

section Sizes

omit [Memory]

private theorem sizeOf_step_pos (todo : SequenceStep) : 0 < sizeOf todo := by
  cases todo <;> simp +arith

private theorem sizeOf_snapshot_lt (m : Model) : sizeOf (snapshot m.type.fields m.values) < sizeOf m.toJson := by
  rw [m.toJson_eq, Json.obj.sizeOf_spec]
  omega

private theorem sizeOf_lookup_lt {data : List (String × Json)} {name : String} {v : Json}
    (h : data.lookup name = some v) : sizeOf v < sizeOf data := by
  have hmem := List.sizeOf_lt_of_mem (Json.mem_of_lookup h)
  rw [Prod.mk.sizeOf_spec] at hmem
  omega

private theorem map_toJson_plain (items : List Json) : (items.map Element.plain).map Element.toJson = items := by
  rw [List.map_map]
  exact (List.map_congr_left fun v _ => by rw [Function.comp_apply, Element.toJson, id]).trans (List.map_id items)

end Sizes

/-- What is entered has less to do. -/
theorem Enters.rank_lt {outer inner : Operation} {tokens : List String} (h : outer.Enters tokens inner) :
    Prod.Lex (· < ·) (Prod.Lex (· < ·) (· < ·)) inner.rank outer.rank := by
  have hprogram {n n' : Nat} {rest rest' : Nat × Nat} (h : n < n') :
      Prod.Lex (· < ·) (Prod.Lex (· < ·) (· < ·)) (n, rest) (n', rest') := .left _ _ h
  have hway {n n' k k' : Nat} (h : n < n') :
      Prod.Lex (· < ·) (Prod.Lex (· < ·) (· < ·)) (0, n, k) (0, n', k') := .right _ (.left _ _ h)
  have hdata {n n' : Nat} (h : n < n') :
      Prod.Lex (· < ·) (Prod.Lex (· < ·) (· < ·)) (0, 0, n) (0, 0, n') := .right _ (.right _ h)
  cases h with
  | first | later | sequenceFirst | sequenceLater | set | replace | setData | updateData | setPointer | unsetPointer
  | withModel | withSequence | updateAt =>
    refine hprogram ?_
    simp +arith
  | put => exact hprogram (sizeOf_step_pos _)
  | editField | editPosition | editModel | editInSequence | editElement =>
    refine hway ?_
    simp +arith
  | member _ _ _ hv =>
    refine hdata ?_
    rw [FieldValue.toJson]
    exact sizeOf_lookup_lt hv
  | merge | make =>
    refine hdata ?_
    rw [FieldValue.toJson, Json.obj.sizeOf_spec]
    omega
  | remake =>
    refine hdata ?_
    rw [FieldValue.toJson]
    exact sizeOf_snapshot_lt _
  | makeSequence =>
    refine hdata ?_
    rw [FieldValue.toJson, map_toJson_plain, Json.arr.sizeOf_spec]
    omega
  | @remakeSequence _ _ s =>
    refine hdata ?_
    rw [FieldValue.toJson, map_toJson_plain, s.toJson_eq, Json.arr.sizeOf_spec]
    omega
  | place =>
    refine hdata (List.sizeOf_lt_of_mem (List.mem_map_of_mem ?_))
    exact List.mem_append_right _ List.mem_cons_self
  | makeElement =>
    refine hdata ?_
    rw [Element.toJson, Json.obj.sizeOf_spec]
    omega
  | remakeElement =>
    refine hdata ?_
    rw [Element.toJson]
    exact sizeOf_snapshot_lt _

end Operation
end SchemaBound
