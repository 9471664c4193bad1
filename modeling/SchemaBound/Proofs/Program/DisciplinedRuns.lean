import SchemaBound.Proofs.Instance.DisciplinedWrites
import SchemaBound.Proofs.Program.Outcomes

/-! What programs make of instances that are within rules: instances within the rules, as long as the changes of nested
instances leave what may stand in their place. -/
namespace SchemaBound
open Success

section Instances

/-- The instance that an input brings along. -/
def Input.instances : Input → List Instance
  | .given (.ok (.model m)) => [.model m]
  | .given (.ok (.sequence s)) => [.sequence s]
  | _ => []

def Element.instances : Element → List Instance
  | .model m => [.model m]
  | .plain _ => []

mutual
/-- The instances that a step brings along, at every depth. -/
def ModelStep.instances : ModelStep → List Instance
  | .set _ input | .replace _ input => input.instances
  | .withModel _ body => modelStepInstances body
  | .withSequence _ body => sequenceStepInstances body
  | .attempt step => step.instances
  | _ => []

def modelStepInstances : List ModelStep → List Instance
  | [] => []
  | step :: rest => step.instances ++ modelStepInstances rest

/-- The instances that a step brings along, at every depth. -/
def SequenceStep.instances : SequenceStep → List Instance
  | .append input | .setAt _ input => input.instances
  | .push inputs | .prepend inputs | .spliceAt _ _ inputs => inputs.flatMap Input.instances
  | .updateAt _ body => modelStepInstances body
  | .attempt step => step.instances
  | _ => []

def sequenceStepInstances : List SequenceStep → List Instance
  | [] => []
  | step :: rest => step.instances ++ sequenceStepInstances rest
end

mutual
/-- The instances that an answer shows: what was removed, and what a nested instance was between its steps. -/
def Answer.instances : Answer → List Instance
  | .removed element => element.toList.flatMap Element.instances
  | .removedAll elements => elements.flatMap fun element => element.toList.flatMap Element.instances
  | .nested entries => entryInstances entries
  | _ => []

def entryInstances : List Entry → List Instance
  | [] => []
  | entry :: rest => entry.instances ++ entryInstances rest

def Entry.instances : Entry → List Instance
  | ⟨answer, state⟩ => state :: answer.instances
end

def Saved.instances (saved : Saved) : List Instance := saved.map (·.2)

/-- The instances that there are after a step or a program: what it was run on, as it is now, what the answer shows,
and what is saved. -/
def Outcome.instances {α β : Type} (shown : α → List Instance) (state : β → Instance) : Outcome α β → List Instance
  | (.ok (a, after), saved) => state after :: shown a ++ saved.instances
  | (.error _, saved) => saved.instances

end Instances

section Faithful

variable [Memory]

mutual
/-- Each change of a nested instance that succeeds leaves an instance of the type that was there before. -/
def ModelStep.isFaithful : ModelStep → Model → Saved → Bool
  | .withModel name body, m, saved =>
    match m.model? name with
    | none => true
    | some nested => modelStepsAreFaithful body nested saved &&
      match (runModel body nested saved).1, ((ModelStep.withModel name body).run m saved).1 with
      | .ok (_, changed), .ok _ => changed.type.same nested.type
      | _, _ => true
  | .withSequence name body, m, saved =>
    match m.sequence? name with
    | none => true
    | some nested => sequenceStepsAreFaithful body nested saved &&
      match (runSequence body nested saved).1, ((ModelStep.withSequence name body).run m saved).1 with
      | .ok (_, changed), .ok _ => changed.type.same nested.type
      | _, _ => true
  | .attempt step, m, saved => step.isFaithful m saved
  | _, _, _ => true

def modelStepsAreFaithful : List ModelStep → Model → Saved → Bool
  | [], _, _ => true
  | step :: rest, m, saved => step.isFaithful m saved &&
    match step.run m saved with
    | (.ok (_, after), saved) => modelStepsAreFaithful rest after saved
    | (.error _, _) => true

/-- Each change of an element that succeeds leaves an instance of the type that was there before. -/
def SequenceStep.isFaithful : SequenceStep → Sequence → Saved → Bool
  | .updateAt i body, s, saved =>
    match s.get? i with
    | some (.model nested) => modelStepsAreFaithful body nested saved &&
      match (runModel body nested saved).1, ((SequenceStep.updateAt i body).run s saved).1 with
      | .ok (_, changed), .ok _ => changed.type.same nested.type
      | _, _ => true
    | _ => true
  | .attempt step, s, saved => step.isFaithful s saved
  | _, _, _ => true

def sequenceStepsAreFaithful : List SequenceStep → Sequence → Saved → Bool
  | [], _, _ => true
  | step :: rest, s, saved => step.isFaithful s saved &&
    match step.run s saved with
    | (.ok (_, after), saved) => sequenceStepsAreFaithful rest after saved
    | (.error _, _) => true
end

end Faithful

variable {d : Discipline} {faithful : Bool}

/-- All the instances are within the rules. -/
def AllObey (d : Discipline) (found : List Instance) : Prop :=
  ∀ i ∈ found, i.Obeys d

@[simp] theorem allObey_nil : AllObey d [] := fun _ h => absurd h List.not_mem_nil

@[simp] theorem allObey_cons {i : Instance} {rest : List Instance} :
    AllObey d (i :: rest) ↔ i.Obeys d ∧ AllObey d rest :=
  List.forall_mem_cons

@[simp] theorem allObey_append {first second : List Instance} :
    AllObey d (first ++ second) ↔ AllObey d first ∧ AllObey d second :=
  List.forall_mem_append

theorem allObey_flatMap {α : Type} {list : List α} {f : α → List Instance} :
    AllObey d (list.flatMap f) ↔ ∀ a ∈ list, AllObey d (f a) := by
  simp only [AllObey, List.mem_flatMap]
  exact ⟨fun h a ha i hi => h i ⟨a, ha, hi⟩, fun h i ⟨a, ha, hi⟩ => h a ha i hi⟩

section Inputs

variable {saved : Saved} {input : Input}

theorem Saved.obeys_of_lookup (hsaved : AllObey d saved.instances) {name : String} {kept : Instance}
    (h : saved.lookup name = some kept) : kept.Obeys d := by
  obtain ⟨before, after, rfl, _⟩ := List.lookup_eq_some_iff.mp h
  refine hsaved kept (List.mem_map.mpr ⟨(name, kept), ?_, rfl⟩)
  exact List.mem_append_right _ List.mem_cons_self

theorem Input.obeys_forModel (hinput : AllObey d input.instances) {m : Model} (hm : m.Obeys d)
    (hsaved : AllObey d saved.instances) {value : FieldValue} (h : input.forModel m saved = .ok value) :
    value.Obeys d := by
  cases input with
  | given given =>
    rw [forModel] at h
    obtain rfl := h
    cases value with
    | plain v => exact FieldValue.obeys_plain v
    | model m => exact hinput (.model m) List.mem_cons_self
    | sequence s => exact hinput (.sequence s) List.mem_cons_self
  | saved name =>
    rw [forModel] at h
    split at h
    · rename_i kept hkept
      obtain rfl := Except.ok.inj h
      have hobeys := Saved.obeys_of_lookup hsaved hkept
      cases kept with
      | model m => exact hobeys
      | sequence s => exact hobeys
    · cases h
  | field name =>
    rw [forModel] at h
    split at h
    · rename_i value' hvalue
      obtain rfl := Except.ok.inj h
      exact Model.obeys_of_get? hm hvalue
    · cases h
  | element i => cases h

theorem Input.obeys_forSequence (hinput : AllObey d input.instances) {s : Sequence} (hs : s.Obeys d)
    (hsaved : AllObey d saved.instances) {e : Element} (h : input.forSequence s saved = .ok e) :
    e.Obeys d := by
  unfold forSequence at h
  split at h
  · obtain rfl := Except.ok.inj h
    exact Element.obeys_plain _
  · rename_i m
    obtain rfl := Except.ok.inj h
    exact hinput (.model m) List.mem_cons_self
  · cases h
  · cases h
  · split at h
    · rename_i m hm
      obtain rfl := Except.ok.inj h
      exact Saved.obeys_of_lookup hsaved hm
    · cases h
  · cases h
  · split at h
    · rename_i e' he
      obtain rfl := Except.ok.inj h
      exact (Sequence.suits_of_get? hs he).obeys
    · cases h

theorem Input.obeys_mapM {inputs : List Input} (hinputs : AllObey d (inputs.flatMap Input.instances))
    {s : Sequence} (hs : s.Obeys d) (hsaved : AllObey d saved.instances) {elements : List Element}
    (h : inputs.mapM (Input.forSequence s saved) = .ok elements) : ∀ e ∈ elements, e.Obeys d := by
  intro e he
  obtain ⟨input, hinput, hread⟩ := exists_of_mem_results h he
  exact obeys_forSequence (allObey_flatMap.mp hinputs input hinput) hs hsaved hread

end Inputs

section Outcomes

variable {saved : Saved} {α β : Type} {shown : α → List Instance} {state : β → Instance}

/-- A step that leaves what is saved alone and shows nothing. -/
theorem Outcome.allObey_of (hsaved : AllObey d saved.instances) {answer : β → Answer}
    (hanswer : ∀ after, (answer after).instances = []) {result : Except Error β}
    (h : ∀ after, result = .ok after → (state after).Obeys d) :
    AllObey d ((Outcome.of saved answer result).instances Answer.instances state) := by
  cases result with
  | ok after =>
    change AllObey d (state after :: (answer after).instances ++ saved.instances)
    rw [hanswer]
    exact allObey_cons.mpr ⟨h after rfl, hsaved⟩
  | error e => exact hsaved

/-- A step that leaves what is saved alone. -/
theorem Outcome.allObey_pair (hsaved : AllObey d saved.instances) {result : Except Error (α × β)}
    (h : ∀ a after, result = .ok (a, after) → (state after).Obeys d ∧ AllObey d (shown a)) :
    AllObey d (Outcome.instances shown state (result, saved)) := by
  cases result with
  | ok found =>
    obtain ⟨a, after⟩ := found
    obtain ⟨hafter, ha⟩ := h a after rfl
    exact allObey_append.mpr ⟨allObey_cons.mpr ⟨hafter, ha⟩, hsaved⟩
  | error e => exact hsaved

/-- A failure that is passed over leaves what was there. -/
theorem Outcome.allObey_passOver {before : β} (hbefore : (state before).Obeys d) {outcome : Outcome Answer β}
    (h : AllObey d (outcome.instances Answer.instances state)) :
    AllObey d ((outcome.passOver before).instances Answer.instances state) := by
  rcases outcome with ⟨result, saved⟩
  cases result with
  | ok found => exact h
  | error e => exact allObey_cons.mpr ⟨hbefore, h⟩

end Outcomes

theorem Saved.obeys_model {saved : Saved} (hsaved : AllObey d saved.instances) {name : String} {m : Model}
    (h : saved.model name = .ok m) : m.Obeys d := by
  unfold Saved.model at h
  split at h
  · rename_i m' hm
    obtain rfl := Except.ok.inj h
    exact obeys_of_lookup hsaved hm
  · cases h

theorem Saved.obeys_sequence {saved : Saved} (hsaved : AllObey d saved.instances) {name : String} {s : Sequence}
    (h : saved.sequence name = .ok s) : s.Obeys d := by
  unfold Saved.sequence at h
  split at h
  · rename_i s' hs
    obtain rfl := Except.ok.inj h
    exact obeys_of_lookup hsaved hs
  · cases h

/-- Removed elements were elements. -/
theorem Sequence.allObey_items {s : Sequence} (hs : s.Obeys d) {item : Option Element} (h : item ∈ s.items) :
    AllObey d (item.toList.flatMap Element.instances) := by
  refine allObey_flatMap.mpr fun e he => ?_
  have hobeys := (elementsObey_iff.mp (obeys_iff.mp hs).2 item h e (Option.mem_toList.mp he)).obeys
  cases e with
  | plain v => exact allObey_nil
  | model m => exact allObey_cons.mpr ⟨hobeys, allObey_nil⟩

section Bodies

/-- What is saved is among what there is after a step. -/
theorem Outcome.allObey_saved {α β : Type} {shown : α → List Instance} {state : β → Instance}
    {outcome : Outcome α β} (h : AllObey d (outcome.instances shown state)) : AllObey d outcome.2.instances := by
  rcases outcome with ⟨result, saved⟩
  cases result with
  | ok found => exact (allObey_append.mp h).2
  | error e => exact h

variable [Memory] {m : Model} {s : Sequence} {saved : Saved} {name : String}

/-- A change of a nested model, given what its body makes. -/
theorem ModelStep.allObey_of_run_withModel (hd : d.IsKept faithful) {body : List ModelStep} (hm : m.Obeys d)
    (hsaved : AllObey d saved.instances) (hf : faithful → (ModelStep.withModel name body).isFaithful m saved)
    (hbody : ∀ nested, nested.Obeys d → (faithful → modelStepsAreFaithful body nested saved) →
      AllObey d ((runModel body nested saved).instances entryInstances .model)) :
    AllObey d (((ModelStep.withModel name body).run m saved).instances Answer.instances .model) := by
  cases hnested : m.model? name with
  | none =>
    rw [run, hnested]
    refine Outcome.allObey_pair hsaved fun answer after h => ?_
    obtain ⟨_, _, nested, _, hslot, _⟩ := Model.withModel_eq_ok.mp h
    cases hnested.symm.trans (Model.model?_of_slotOf? hslot)
  | some nested =>
    rw [isFaithful, hnested, Bool.and_eq_true] at hf
    have hmade := hbody nested (Model.obeys_of_model? hm hnested) fun h => (hf h).1
    rcases hrun : (ModelStep.withModel name body).run m saved with ⟨result, saved'⟩
    cases result with
    | error e =>
      have hsame : (runModel body nested saved).2 = saved' := by
        rw [run, hnested] at hrun
        exact (Prod.mk.inj hrun).2
      exact hsame ▸ Outcome.allObey_saved hmade
    | ok result =>
      obtain ⟨answer, after⟩ := result
      obtain ⟨same, entries, changed, hsame, hran, rfl, hwith⟩ := exists_of_run_withModel hrun
      obtain rfl := Option.some.inj (hnested.symm.trans hsame)
      rw [hran] at hmade
      rw [hran, hrun] at hf
      obtain ⟨hstate, hsaved'⟩ := allObey_append.mp hmade
      obtain ⟨hchanged, hentries⟩ := allObey_cons.mp hstate
      have hafter : m.StaysWithin d after := by
        refine Model.staysWithin_of_withModel hd hm (fun nested' changed' hnested' _ h => ?_) hwith
        obtain rfl := Option.some.inj (hnested.symm.trans hnested')
        obtain ⟨_, rfl⟩ := Prod.mk.inj (Except.ok.inj h)
        exact ⟨hchanged, fun h => (hf h).2⟩
      exact allObey_append.mpr ⟨allObey_cons.mpr ⟨hafter.1, hentries⟩, hsaved'⟩

/-- A change of a nested sequence, given what its body makes. -/
theorem ModelStep.allObey_of_run_withSequence (hd : d.IsKept faithful) {body : List SequenceStep} (hm : m.Obeys d)
    (hsaved : AllObey d saved.instances) (hf : faithful → (ModelStep.withSequence name body).isFaithful m saved)
    (hbody : ∀ nested, nested.Obeys d → (faithful → sequenceStepsAreFaithful body nested saved) →
      AllObey d ((runSequence body nested saved).instances entryInstances .sequence)) :
    AllObey d (((ModelStep.withSequence name body).run m saved).instances Answer.instances .model) := by
  cases hnested : m.sequence? name with
  | none =>
    rw [run, hnested]
    refine Outcome.allObey_pair hsaved fun answer after h => ?_
    obtain ⟨_, _, nested, _, hslot, _⟩ := Model.withSequence_eq_ok.mp h
    cases hnested.symm.trans (Model.sequence?_of_slotOf? hslot)
  | some nested =>
    rw [isFaithful, hnested, Bool.and_eq_true] at hf
    have hmade := hbody nested (Model.obeys_of_sequence? hm hnested) fun h => (hf h).1
    rcases hrun : (ModelStep.withSequence name body).run m saved with ⟨result, saved'⟩
    cases result with
    | error e =>
      have hsame : (runSequence body nested saved).2 = saved' := by
        rw [run, hnested] at hrun
        exact (Prod.mk.inj hrun).2
      exact hsame ▸ Outcome.allObey_saved hmade
    | ok result =>
      obtain ⟨answer, after⟩ := result
      obtain ⟨same, entries, changed, hsame, hran, rfl, hwith⟩ := exists_of_run_withSequence hrun
      obtain rfl := Option.some.inj (hnested.symm.trans hsame)
      rw [hran] at hmade
      rw [hran, hrun] at hf
      obtain ⟨hstate, hsaved'⟩ := allObey_append.mp hmade
      obtain ⟨hchanged, hentries⟩ := allObey_cons.mp hstate
      have hafter : m.StaysWithin d after := by
        refine Model.staysWithin_of_withSequence hd hm (fun nested' changed' hnested' _ h => ?_) hwith
        obtain rfl := Option.some.inj (hnested.symm.trans hnested')
        obtain ⟨_, rfl⟩ := Prod.mk.inj (Except.ok.inj h)
        exact ⟨hchanged, fun h => (hf h).2⟩
      exact allObey_append.mpr ⟨allObey_cons.mpr ⟨hafter.1, hentries⟩, hsaved'⟩

/-- A change of an element, given what its body makes. -/
theorem SequenceStep.allObey_of_run_updateAt (hd : d.IsKept faithful) {i : Nat} {body : List ModelStep} (hs : s.Obeys d)
    (hsaved : AllObey d saved.instances) (hf : faithful → (SequenceStep.updateAt i body).isFaithful s saved)
    (hbody : ∀ nested, nested.Obeys d → (faithful → modelStepsAreFaithful body nested saved) →
      AllObey d ((runModel body nested saved).instances entryInstances .model)) :
    AllObey d (((SequenceStep.updateAt i body).run s saved).instances Answer.instances .sequence) := by
  rcases hrun : (SequenceStep.updateAt i body).run s saved with ⟨result, saved'⟩
  unfold isFaithful at hf
  cases result with
  | error e =>
    rw [run] at hrun
    split at hrun
    · rename_i nested hnested
      rw [hnested] at hf
      have hmade := hbody nested (Sequence.suits_of_get? hs hnested).obeys fun h => (Bool.and_eq_true_iff.mp (hf h)).1
      exact (Prod.mk.inj hrun).2 ▸ Outcome.allObey_saved hmade
    · exact (Prod.mk.inj hrun).2 ▸ hsaved
  | ok result =>
    obtain ⟨answer, after⟩ := result
    obtain ⟨nested, entries, changed, hnested, hran, rfl, hupdate⟩ := exists_of_run_updateAt hrun
    rw [hnested] at hf
    have hbodyFaithful := fun h => (Bool.and_eq_true_iff.mp (hf h)).1
    have hsame := fun h => (Bool.and_eq_true_iff.mp (hf h)).2
    rw [hran, hrun] at hsame
    have hmade := hbody nested (Sequence.suits_of_get? hs hnested).obeys hbodyFaithful
    rw [hran] at hmade
    obtain ⟨hstate, hsaved'⟩ := allObey_append.mp hmade
    obtain ⟨hchanged, hentries⟩ := allObey_cons.mp hstate
    have hafter : s.StaysWithin d after := by
      refine Sequence.staysWithin_of_updateAt hd hs (fun nested' changed' hnested' _ h => ?_) hupdate
      obtain rfl := Element.model.inj (Option.some.inj (hnested.symm.trans hnested'))
      obtain ⟨_, rfl⟩ := Prod.mk.inj (Except.ok.inj h)
      exact ⟨hchanged, hsame⟩
    exact allObey_append.mpr ⟨allObey_cons.mpr ⟨hafter.1, hentries⟩, hsaved'⟩

/-- The first step of a program, then the others on what it left. -/
theorem allObey_of_runModel_cons {step : ModelStep} {rest : List ModelStep}
    (hstep : AllObey d ((step.run m saved).instances Answer.instances .model))
    (hrest : ∀ answer after saved', step.run m saved = (.ok (answer, after), saved') → after.Obeys d →
      AllObey d saved'.instances →
      AllObey d ((runModel rest after saved').instances entryInstances .model)) :
    AllObey d ((runModel (step :: rest) m saved).instances entryInstances .model) := by
  rw [runModel]
  rcases hrun : step.run m saved with ⟨result, between⟩
  rw [hrun] at hstep
  cases result with
  | error e => exact hstep
  | ok result =>
    obtain ⟨answer, after⟩ := result
    obtain ⟨hstate, hbetween⟩ := allObey_append.mp hstep
    obtain ⟨hafter, hanswer⟩ := allObey_cons.mp hstate
    have hothers := hrest answer after between hrun hafter hbetween
    dsimp only
    rcases hran : runModel rest after between with ⟨outcome, saved'⟩
    rw [hran] at hothers
    cases outcome with
    | error e => exact hothers
    | ok found =>
      obtain ⟨entries, last⟩ := found
      obtain ⟨hlast, hsaved'⟩ := allObey_append.mp hothers
      obtain ⟨hlast, hentries⟩ := allObey_cons.mp hlast
      have hshown : AllObey d (entryInstances (⟨answer, .model after⟩ :: entries)) := by
        rw [entryInstances, Entry.instances]
        exact allObey_append.mpr ⟨allObey_cons.mpr ⟨hafter, hanswer⟩, hentries⟩
      exact allObey_append.mpr ⟨allObey_cons.mpr ⟨hlast, hshown⟩, hsaved'⟩

/-- The first step of a program, then the others on what it left. -/
theorem allObey_of_runSequence_cons {step : SequenceStep} {rest : List SequenceStep}
    (hstep : AllObey d ((step.run s saved).instances Answer.instances .sequence))
    (hrest : ∀ answer after saved', step.run s saved = (.ok (answer, after), saved') → after.Obeys d →
      AllObey d saved'.instances →
      AllObey d ((runSequence rest after saved').instances entryInstances .sequence)) :
    AllObey d ((runSequence (step :: rest) s saved).instances entryInstances .sequence) := by
  rw [runSequence]
  rcases hrun : step.run s saved with ⟨result, between⟩
  rw [hrun] at hstep
  cases result with
  | error e => exact hstep
  | ok result =>
    obtain ⟨answer, after⟩ := result
    obtain ⟨hstate, hbetween⟩ := allObey_append.mp hstep
    obtain ⟨hafter, hanswer⟩ := allObey_cons.mp hstate
    have hothers := hrest answer after between hrun hafter hbetween
    dsimp only
    rcases hran : runSequence rest after between with ⟨outcome, saved'⟩
    rw [hran] at hothers
    cases outcome with
    | error e => exact hothers
    | ok found =>
      obtain ⟨entries, last⟩ := found
      obtain ⟨hlast, hsaved'⟩ := allObey_append.mp hothers
      obtain ⟨hlast, hentries⟩ := allObey_cons.mp hlast
      have hshown : AllObey d (entryInstances (⟨answer, .sequence after⟩ :: entries)) := by
        rw [entryInstances, Entry.instances]
        exact allObey_append.mpr ⟨allObey_cons.mpr ⟨hafter, hanswer⟩, hentries⟩
      exact allObey_append.mpr ⟨allObey_cons.mpr ⟨hlast, hshown⟩, hsaved'⟩

end Bodies

section Runs

variable [Memory]

mutual
/-- A faithful step on an instance with slots of their kinds leaves such instances only. -/
theorem ModelStep.allObey_of_run (hd : d.IsKept faithful) : ∀ (step : ModelStep) {m : Model} {saved : Saved},
    m.Obeys d →
    AllObey d saved.instances → AllObey d step.instances → (faithful → step.isFaithful m saved) →
    AllObey d ((step.run m saved).instances Answer.instances .model)
  | .set name input, m, saved, hm, hsaved, hgiven, hf => by
    refine Outcome.allObey_of hsaved (fun _ => rfl) fun after h => ?_
    obtain ⟨value, hvalue, hset⟩ := bind_eq_ok.mp h
    exact (Model.staysWithin_of_set hd hm (Input.obeys_forModel hgiven hm hsaved hvalue) hset).1
  | .replace name input, m, saved, hm, hsaved, hgiven, hf => by
    refine Outcome.allObey_of hsaved (fun _ => rfl) fun after h => ?_
    obtain ⟨value, hvalue, hreplace⟩ := bind_eq_ok.mp h
    exact (Model.staysWithin_of_replace hd hm (Input.obeys_forModel hgiven hm hsaved hvalue) hreplace).1
  | .unset name, m, saved, hm, hsaved, hgiven, hf =>
    Outcome.allObey_of hsaved (fun _ => rfl) fun _ h => (Model.staysWithin_of_unset hd hm h).1
  | .setData data, m, saved, hm, hsaved, hgiven, hf =>
    Outcome.allObey_of hsaved (fun _ => rfl) fun _ h => (Model.staysWithin_of_setData hd hm h).1
  | .updateData data, m, saved, hm, hsaved, hgiven, hf =>
    Outcome.allObey_of hsaved (fun _ => rfl) fun _ h => (Model.staysWithin_of_updateData hd hm h).1
  | .setPointer pointer v, m, saved, hm, hsaved, hgiven, hf =>
    Outcome.allObey_of hsaved (fun _ => rfl) fun _ h => (Model.staysWithin_of_setPointer hd hm h).1
  | .unsetPointer pointer, m, saved, hm, hsaved, hgiven, hf =>
    Outcome.allObey_of hsaved (fun _ => rfl) fun _ h => (Model.staysWithin_of_unsetPointer hd hm h).1
  | .validate candidate, m, saved, hm, hsaved, hgiven, hf => by
    refine Outcome.allObey_pair hsaved fun answer after h => ?_
    obtain ⟨_, _, h⟩ := map_eq_ok.mp h
    obtain ⟨rfl, rfl⟩ := Prod.mk.inj h
    exact ⟨hm, allObey_nil⟩
  | .integers, m, saved, hm, hsaved, hgiven, hf => by
    rw [ModelStep.run]
    split
    · exact allObey_cons.mpr ⟨hm, hsaved⟩
    · exact hsaved
  | .look, m, saved, hm, hsaved, hgiven, hf => allObey_cons.mpr ⟨hm, hsaved⟩
  | .clear, m, saved, hm, hsaved, hgiven, hf =>
    allObey_cons.mpr ⟨ModelType.obeys_empty (Model.obeys_iff.mp hm).1, hsaved⟩
  | .save name, m, saved, hm, hsaved, hgiven, hf =>
    allObey_cons.mpr ⟨hm, allObey_cons.mpr ⟨hm, hsaved⟩⟩
  | .restore name, m, saved, hm, hsaved, hgiven, hf =>
    Outcome.allObey_of hsaved (fun _ => rfl) fun _ h => Saved.obeys_model hsaved h
  | .compare name, m, saved, hm, hsaved, hgiven, hf => by
    refine Outcome.allObey_pair hsaved fun answer after h => ?_
    obtain ⟨_, _, h⟩ := map_eq_ok.mp h
    obtain ⟨rfl, rfl⟩ := Prod.mk.inj h
    exact ⟨hm, allObey_nil⟩
  | .withModel name body, m, saved, hm, hsaved, hgiven, hf =>
    ModelStep.allObey_of_run_withModel hd hm hsaved hf fun _ hnested hfaithful =>
      allObey_of_runModel hd body hnested hsaved hgiven hfaithful
  | .withSequence name body, m, saved, hm, hsaved, hgiven, hf =>
    ModelStep.allObey_of_run_withSequence hd hm hsaved hf fun _ hnested hfaithful =>
      allObey_of_runSequence hd body hnested hsaved hgiven hfaithful
  | .attempt step, m, saved, hm, hsaved, hgiven, hf => by
    rw [ModelStep.isFaithful] at hf
    have hstep := ModelStep.allObey_of_run hd step hm hsaved hgiven hf
    rw [ModelStep.run_attempt]
    refine Outcome.allObey_passOver ?_ hstep
    exact hm

theorem allObey_of_runModel (hd : d.IsKept faithful) : ∀ (steps : List ModelStep) {m : Model} {saved : Saved},
    m.Obeys d →
    AllObey d saved.instances → AllObey d (modelStepInstances steps) →
    (faithful → modelStepsAreFaithful steps m saved) →
    AllObey d ((runModel steps m saved).instances entryInstances .model)
  | [], m, saved, hm, hsaved, hgiven, hf => allObey_cons.mpr ⟨hm, hsaved⟩
  | step :: rest, m, saved, hm, hsaved, hgiven, hf => by
    rw [modelStepInstances, allObey_append] at hgiven
    rw [modelStepsAreFaithful, Bool.and_eq_true] at hf
    have hstep := ModelStep.allObey_of_run hd step hm hsaved hgiven.1 fun h => (hf h).1
    refine allObey_of_runModel_cons hstep fun answer after saved' hrun hafter hsaved' => ?_
    rw [hrun] at hf
    exact allObey_of_runModel hd rest hafter hsaved' hgiven.2 fun h => (hf h).2

theorem SequenceStep.allObey_of_run (hd : d.IsKept faithful) : ∀ (step : SequenceStep) {s : Sequence} {saved : Saved},
    s.Obeys d →
    AllObey d saved.instances → AllObey d step.instances → (faithful → step.isFaithful s saved) →
    AllObey d ((step.run s saved).instances Answer.instances .sequence)
  | .append input, s, saved, hs, hsaved, hgiven, hf => by
    refine Outcome.allObey_of hsaved (fun _ => rfl) fun after h => ?_
    obtain ⟨e, he, happend⟩ := bind_eq_ok.mp h
    exact (Sequence.staysWithin_of_append hd hs (Input.obeys_forSequence hgiven hs hsaved he) happend).1
  | .push inputs, s, saved, hs, hsaved, hgiven, hf => by
    refine Outcome.allObey_of hsaved (fun _ => rfl) fun after h => ?_
    obtain ⟨elements, helements, hpush⟩ := bind_eq_ok.mp h
    exact (Sequence.staysWithin_of_push hd hs (Input.obeys_mapM hgiven hs hsaved helements) hpush).1
  | .prepend inputs, s, saved, hs, hsaved, hgiven, hf => by
    refine Outcome.allObey_of hsaved (fun _ => rfl) fun after h => ?_
    obtain ⟨elements, helements, hprepend⟩ := bind_eq_ok.mp h
    exact (Sequence.staysWithin_of_prepend hd hs (Input.obeys_mapM hgiven hs hsaved helements) hprepend).1
  | .removeLast, s, saved, hs, hsaved, hgiven, hf => by
    refine Outcome.allObey_pair hsaved fun answer after h => ?_
    obtain ⟨⟨removed, after'⟩, hremove, h⟩ := map_eq_ok.mp h
    obtain ⟨rfl, rfl⟩ := Prod.mk.inj h
    refine ⟨(Sequence.staysWithin_of_removeLast hd hs hremove).1, ?_⟩
    rcases Sequence.removeLast_eq_ok.mp hremove with ⟨_, rfl, _⟩ | ⟨hlast, _⟩
    · exact allObey_nil
    · exact Sequence.allObey_items hs (List.mem_of_getLast? hlast)
  | .removeFirst, s, saved, hs, hsaved, hgiven, hf => by
    refine Outcome.allObey_pair hsaved fun answer after h => ?_
    obtain ⟨⟨removed, after'⟩, hremove, h⟩ := map_eq_ok.mp h
    obtain ⟨rfl, rfl⟩ := Prod.mk.inj h
    refine ⟨(Sequence.staysWithin_of_removeFirst hd hs hremove).1, ?_⟩
    rcases Sequence.removeFirst_eq_ok.mp hremove with ⟨_, rfl, _⟩ | ⟨rest, hitems, _⟩
    · exact allObey_nil
    · refine Sequence.allObey_items hs ?_
      rw [hitems]
      exact List.mem_cons_self
  | .setAt i input, s, saved, hs, hsaved, hgiven, hf => by
    refine Outcome.allObey_of hsaved (fun _ => rfl) fun after h => ?_
    obtain ⟨e, he, hset⟩ := bind_eq_ok.mp h
    exact (Sequence.staysWithin_of_setAt hd hs (Input.obeys_forSequence hgiven hs hsaved he) hset).1
  | .spliceAt start count inputs, s, saved, hs, hsaved, hgiven, hf => by
    refine Outcome.allObey_pair hsaved fun answer after h => ?_
    obtain ⟨⟨removed, after'⟩, hsplice, h⟩ := map_eq_ok.mp h
    obtain ⟨rfl, rfl⟩ := Prod.mk.inj h
    obtain ⟨elements, helements, hsplice⟩ := bind_eq_ok.mp hsplice
    have hinputs := Input.obeys_mapM hgiven hs hsaved helements
    refine ⟨(Sequence.staysWithin_of_spliceAt hd hs hinputs hsplice).1, ?_⟩
    obtain ⟨rfl, _⟩ := Sequence.spliceAt_eq_ok.mp hsplice
    exact allObey_flatMap.mpr fun item hitem =>
      Sequence.allObey_items hs (List.mem_of_mem_drop (List.mem_of_mem_take hitem))
  | .look, s, saved, hs, hsaved, hgiven, hf => allObey_cons.mpr ⟨hs, hsaved⟩
  | .clear, s, saved, hs, hsaved, hgiven, hf =>
    allObey_cons.mpr ⟨SequenceType.obeys_empty (Sequence.obeys_iff.mp hs).1, hsaved⟩
  | .save name, s, saved, hs, hsaved, hgiven, hf =>
    allObey_cons.mpr ⟨hs, allObey_cons.mpr ⟨hs, hsaved⟩⟩
  | .restore name, s, saved, hs, hsaved, hgiven, hf =>
    Outcome.allObey_of hsaved (fun _ => rfl) fun _ h => Saved.obeys_sequence hsaved h
  | .compare name, s, saved, hs, hsaved, hgiven, hf => by
    refine Outcome.allObey_pair hsaved fun answer after h => ?_
    obtain ⟨_, _, h⟩ := map_eq_ok.mp h
    obtain ⟨rfl, rfl⟩ := Prod.mk.inj h
    exact ⟨hs, allObey_nil⟩
  | .updateAt i body, s, saved, hs, hsaved, hgiven, hf =>
    SequenceStep.allObey_of_run_updateAt hd hs hsaved hf fun _ hnested hfaithful =>
      allObey_of_runModel hd body hnested hsaved hgiven hfaithful
  | .attempt step, s, saved, hs, hsaved, hgiven, hf => by
    rw [SequenceStep.isFaithful] at hf
    have hstep := SequenceStep.allObey_of_run hd step hs hsaved hgiven hf
    rw [SequenceStep.run_attempt]
    refine Outcome.allObey_passOver ?_ hstep
    exact hs

theorem allObey_of_runSequence (hd : d.IsKept faithful) : ∀ (steps : List SequenceStep) {s : Sequence} {saved : Saved}, s.Obeys d →
    AllObey d saved.instances → AllObey d (sequenceStepInstances steps) →
    (faithful → sequenceStepsAreFaithful steps s saved) →
    AllObey d ((runSequence steps s saved).instances entryInstances .sequence)
  | [], s, saved, hs, hsaved, hgiven, hf => allObey_cons.mpr ⟨hs, hsaved⟩
  | step :: rest, s, saved, hs, hsaved, hgiven, hf => by
    rw [sequenceStepInstances, allObey_append] at hgiven
    rw [sequenceStepsAreFaithful, Bool.and_eq_true] at hf
    have hstep := SequenceStep.allObey_of_run hd step hs hsaved hgiven.1 fun h => (hf h).1
    refine allObey_of_runSequence_cons hstep fun answer after saved' hrun hafter hsaved' => ?_
    rw [hrun] at hf
    exact allObey_of_runSequence hd rest hafter hsaved' hgiven.2 fun h => (hf h).2
end

end Runs
end SchemaBound
