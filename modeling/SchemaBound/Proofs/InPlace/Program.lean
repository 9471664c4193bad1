import SchemaBound.Proofs.InPlace.Refinement
import SchemaBound.Proofs.Program.Outcomes

/-! Programs of writes in place, and that at every level a failing step leaves its instance as it was. -/
namespace SchemaBound
open InPlace

variable [Memory]

mutual
/-- Runs a step on a model in place. -/
def ModelStep.inPlace : ModelStep → InPlace Model Answer
  | .set name input => do
    let value ← liftM (input.forModel (← get) (← getThe Saved))
    setField name value
    return .done
  | .replace name input => do
    let value ← liftM (input.forModel (← get) (← getThe Saved))
    replaceField name value
    return .done
  | .unset name => do
    unsetField name
    return .done
  | .setData data => do
    InPlace.setData data
    return .count (← get).size
  | .updateData data => do
    InPlace.updateData data
    return .count (← get).size
  | .setPointer pointer v => do
    InPlace.setPointer pointer v
    return .done
  | .unsetPointer pointer => do
    InPlace.unsetPointer pointer
    return .done
  | .validate candidate => do
    liftM ((← get).validate candidate)
    return .done
  | .integers => do
    match (← get).integers? with
    | some fields => return .integers fields
    | none => throw .typeMismatch
  | .look => return .done
  | .clear => do
    set (← get).type.empty
    return .done
  | .save name => do
    let m ← get
    modifyThe Saved ((name, .model m) :: ·)
    return .done
  | .restore name => do
    let kept ← liftM ((← getThe Saved).model name)
    set kept
    return .done
  | .compare name => do
    let m ← get
    let other ← liftM ((← getThe Saved).model name)
    return .comparison (m.identical other) (m.type.same other.type)
  | .withModel name body => do
    return .nested (← InPlace.withModel name (runModelInPlace body))
  | .withSequence name body => do
    return .nested (← InPlace.withSequence name (runSequenceInPlace body))
  | .attempt step => tryCatch step.inPlace fun e => return .caught e

/-- Runs steps on a model in place, up to the first failure, which undoes nothing. -/
def runModelInPlace : List ModelStep → InPlace Model (List Entry)
  | [] => return []
  | step :: rest => do
    let answer ← step.inPlace
    let m ← get
    let entries ← runModelInPlace rest
    return ⟨answer, .model m⟩ :: entries

/-- Runs a step on a sequence in place. -/
def SequenceStep.inPlace : SequenceStep → InPlace Sequence Answer
  | .append input => do
    let e ← liftM (input.forSequence (← get) (← getThe Saved))
    InPlace.append e
    return .count (← get).size
  | .push inputs => do
    let elements ← liftM (inputs.mapM (Input.forSequence (← get) (← getThe Saved)))
    InPlace.push elements
    return .count (← get).size
  | .prepend inputs => do
    let elements ← liftM (inputs.mapM (Input.forSequence (← get) (← getThe Saved)))
    InPlace.prepend elements
    return .count (← get).size
  | .removeLast => return .removed (← InPlace.removeLast)
  | .removeFirst => return .removed (← InPlace.removeFirst)
  | .setAt i input => do
    let e ← liftM (input.forSequence (← get) (← getThe Saved))
    InPlace.setAt i e
    return .done
  | .spliceAt start count inputs => do
    let elements ← liftM (inputs.mapM (Input.forSequence (← get) (← getThe Saved)))
    return .removedAll (← InPlace.spliceAt start count elements)
  | .look => return .done
  | .clear => do
    set (← get).type.empty
    return .done
  | .save name => do
    let s ← get
    modifyThe Saved ((name, .sequence s) :: ·)
    return .done
  | .restore name => do
    let kept ← liftM ((← getThe Saved).sequence name)
    set kept
    return .done
  | .compare name => do
    let s ← get
    let other ← liftM ((← getThe Saved).sequence name)
    return .comparison (s.identical other) (s.type.same other.type)
  | .updateAt i body => do
    return .nested (← InPlace.updateAt i (runModelInPlace body))
  | .attempt step => tryCatch step.inPlace fun e => return .caught e

/-- Runs steps on a sequence in place, up to the first failure, which undoes nothing. -/
def runSequenceInPlace : List SequenceStep → InPlace Sequence (List Entry)
  | [] => return []
  | step :: rest => do
    let answer ← step.inPlace
    let s ← get
    let entries ← runSequenceInPlace rest
    return ⟨answer, .sequence s⟩ :: entries
end

section Answers

omit [Memory]

variable {σ β : Type} {before : σ} {saved : Saved}

/-- An input is read first. -/
private theorem runOn_input (read : σ → Saved → Except Error β) (next : σ → β → InPlace σ Answer)
    (before : σ) (saved : Saved) :
    InPlace.runOn (do
        let now ← get
        let kept ← getThe Saved
        let value ← liftM (read now kept)
        next now value) before saved =
      match read before saved with
      | .ok value => (next before value).runOn before saved
      | .error e => ((.error e, before), saved) := by
  rw [runOn_bind, runOn_get]
  dsimp only
  rw [runOn_bind, runOn_getSaved]
  dsimp only
  rw [runOn_bind, runOn_lift]
  cases read before saved <;> rfl

/-- A write is answered by what it left. -/
private theorem runOn_answer {op : InPlace σ Unit} {f : σ → Except Error σ} {next : Unit → InPlace σ Answer}
    {answer : σ → Answer} (h : op.Realizes fun before saved => written (f before) saved)
    (hnext : ∀ after saved, (next ()).runOn after saved = ((.ok (answer after), after), saved)) (before : σ)
    (saved : Saved) :
    (op >>= next).runOn before saved = keeping before (Outcome.of saved answer (f before)) := by
  rw [runOn_bind, h]
  dsimp only
  cases f before with
  | ok after => exact hnext after saved
  | error e => rfl

/-- An operation is answered by what it returned. -/
private theorem runOn_returned {op : InPlace σ β} {f : σ → Saved → Outcome β σ} (h : op.Realizes f)
    (answer : β → Answer) (before : σ) (saved : Saved) :
    InPlace.runOn (do return answer (← op)) before saved =
      keeping before ((f before saved).1.map fun (b, after) => (answer b, after), (f before saved).2) := by
  rw [runOn_bind, h]
  rcases f before saved with ⟨result, saved'⟩
  cases result <;> rfl

end Answers

mutual
/-- A step in place does what the step does that yields a new model, and leaves the model where that one
fails. -/
theorem ModelStep.realizes_inPlace : ∀ step : ModelStep, step.inPlace.Realizes step.run
  | .set name input => fun m saved => by
    unfold ModelStep.inPlace ModelStep.run
    rw [runOn_input fun m saved => input.forModel m saved]
    cases input.forModel m saved with
    | error e => rfl
    | ok value => exact runOn_answer (realizes_setField value) (fun _ _ => rfl) m saved
  | .replace name input => fun m saved => by
    unfold ModelStep.inPlace ModelStep.run
    rw [runOn_input fun m saved => input.forModel m saved]
    cases input.forModel m saved with
    | error e => rfl
    | ok value => exact runOn_answer (realizes_replaceField value) (fun _ _ => rfl) m saved
  | .unset name => fun m saved => by
    unfold ModelStep.inPlace ModelStep.run
    exact runOn_answer realizes_unsetField (fun _ _ => rfl) m saved
  | .setData data => fun m saved => by
    unfold ModelStep.inPlace ModelStep.run
    exact runOn_answer (realizes_setData data) (fun _ _ => rfl) m saved
  | .updateData data => fun m saved => by
    unfold ModelStep.inPlace ModelStep.run
    exact runOn_answer (realizes_updateData data) (fun _ _ => rfl) m saved
  | .setPointer pointer v => fun m saved => by
    unfold ModelStep.inPlace ModelStep.run
    exact runOn_answer (realizes_setPointer v) (fun _ _ => rfl) m saved
  | .unsetPointer pointer => fun m saved => by
    unfold ModelStep.inPlace ModelStep.run
    exact runOn_answer realizes_unsetPointer (fun _ _ => rfl) m saved
  | .validate candidate => fun m saved => by
    unfold ModelStep.inPlace ModelStep.run
    rw [runOn_bind, runOn_get]
    dsimp only
    rw [runOn_bind, runOn_lift]
    cases m.validate candidate <;> rfl
  | .integers => fun m saved => by
    unfold ModelStep.inPlace ModelStep.run
    rw [runOn_bind, runOn_get]
    dsimp only
    cases m.integers? <;> rfl
  | .look => fun m saved => by
    unfold ModelStep.inPlace ModelStep.run
    rfl
  | .clear => fun m saved => by
    unfold ModelStep.inPlace ModelStep.run
    rfl
  | .save name => fun m saved => by
    unfold ModelStep.inPlace ModelStep.run
    rfl
  | .restore name => fun m saved => by
    unfold ModelStep.inPlace ModelStep.run
    rw [runOn_bind, runOn_getSaved]
    dsimp only
    rw [runOn_bind, runOn_lift]
    cases saved.model name <;> rfl
  | .compare name => fun m saved => by
    unfold ModelStep.inPlace ModelStep.run
    rw [runOn_input fun m saved => saved.model name]
    cases saved.model name <;> rfl
  | .withModel name body => fun m saved => by
    have hwith : (InPlace.withModel name (runModelInPlace body)).Realizes _ :=
      realizes_withModel (follows_runModelInPlace body) fun _ => .error .nothingThere
    unfold ModelStep.inPlace ModelStep.run
    rw [runOn_returned hwith]
    refine congrArg (keeping m) ?_
    cases hnested : m.model? name with
    | none =>
      dsimp only
      rw [withModel_map, withModel_of_none hnested, withModel_of_none hnested]
    | some nested =>
      dsimp only
      rw [withModel_map]
  | .withSequence name body => fun m saved => by
    have hwith : (InPlace.withSequence name (runSequenceInPlace body)).Realizes _ :=
      realizes_withSequence (follows_runSequenceInPlace body) fun _ => .error .nothingThere
    unfold ModelStep.inPlace ModelStep.run
    rw [runOn_returned hwith]
    refine congrArg (keeping m) ?_
    cases hnested : m.sequence? name with
    | none =>
      dsimp only
      rw [withSequence_map, withSequence_of_none hnested, withSequence_of_none hnested]
    | some nested =>
      dsimp only
      rw [withSequence_map]
  | .attempt step => fun m saved => by
    have hstep := step.realizes_inPlace m saved
    unfold ModelStep.inPlace ModelStep.run
    rw [runOn_tryCatch, hstep]
    rcases step.run m saved with ⟨result, saved'⟩
    cases result <;> rfl

theorem follows_runModelInPlace : ∀ steps : List ModelStep,
    (runModelInPlace steps).Follows (runModel steps)
  | [] => fun m saved => by
    unfold runModelInPlace runModel
    rfl
  | step :: rest => fun m saved => by
    have hstep := step.realizes_inPlace m saved
    unfold runModelInPlace runModel
    rw [runOn_bind, hstep]
    rcases step.run m saved with ⟨result, saved'⟩
    cases result with
    | error e => exact ⟨m, rfl⟩
    | ok result =>
      obtain ⟨answer, after⟩ := result
      have hrest := follows_runModelInPlace rest after saved'
      dsimp only [keeping]
      rw [runOn_bind, runOn_get]
      dsimp only
      rw [runOn_bind]
      rcases hrun : runModel rest after saved' with ⟨outcome, saved''⟩
      rw [hrun] at hrest
      cases outcome with
      | error e =>
        obtain ⟨left, hleft⟩ := hrest
        exact ⟨left, by rw [hleft]⟩
      | ok last =>
        rw [show (runModelInPlace rest).runOn after saved' = _ from hrest]
        rfl

theorem SequenceStep.realizes_inPlace : ∀ step : SequenceStep, step.inPlace.Realizes step.run
  | .append input => fun s saved => by
    unfold SequenceStep.inPlace SequenceStep.run
    rw [runOn_input fun s saved => input.forSequence s saved]
    cases input.forSequence s saved with
    | error e => rfl
    | ok e => exact runOn_answer (realizes_append e) (fun _ _ => rfl) s saved
  | .push inputs => fun s saved => by
    unfold SequenceStep.inPlace SequenceStep.run
    rw [runOn_input fun s saved => inputs.mapM (Input.forSequence s saved)]
    cases inputs.mapM (Input.forSequence s saved) with
    | error e => rfl
    | ok elements => exact runOn_answer (realizes_push elements) (fun _ _ => rfl) s saved
  | .prepend inputs => fun s saved => by
    unfold SequenceStep.inPlace SequenceStep.run
    rw [runOn_input fun s saved => inputs.mapM (Input.forSequence s saved)]
    cases inputs.mapM (Input.forSequence s saved) with
    | error e => rfl
    | ok elements => exact runOn_answer (realizes_prepend elements) (fun _ _ => rfl) s saved
  | .removeLast => fun s saved => by
    unfold SequenceStep.inPlace SequenceStep.run
    exact runOn_returned realizes_removeLast .removed s saved
  | .removeFirst => fun s saved => by
    unfold SequenceStep.inPlace SequenceStep.run
    exact runOn_returned realizes_removeFirst .removed s saved
  | .setAt i input => fun s saved => by
    unfold SequenceStep.inPlace SequenceStep.run
    rw [runOn_input fun s saved => input.forSequence s saved]
    cases input.forSequence s saved with
    | error e => rfl
    | ok e => exact runOn_answer (realizes_setAt i e) (fun _ _ => rfl) s saved
  | .spliceAt start count inputs => fun s saved => by
    unfold SequenceStep.inPlace SequenceStep.run
    rw [runOn_input fun s saved => inputs.mapM (Input.forSequence s saved)]
    cases inputs.mapM (Input.forSequence s saved) with
    | error e => rfl
    | ok elements => exact runOn_returned (realizes_spliceAt start count elements) .removedAll s saved
  | .look => fun s saved => by
    unfold SequenceStep.inPlace SequenceStep.run
    rfl
  | .clear => fun s saved => by
    unfold SequenceStep.inPlace SequenceStep.run
    rfl
  | .save name => fun s saved => by
    unfold SequenceStep.inPlace SequenceStep.run
    rfl
  | .restore name => fun s saved => by
    unfold SequenceStep.inPlace SequenceStep.run
    rw [runOn_bind, runOn_getSaved]
    dsimp only
    rw [runOn_bind, runOn_lift]
    cases saved.sequence name <;> rfl
  | .compare name => fun s saved => by
    unfold SequenceStep.inPlace SequenceStep.run
    rw [runOn_input fun s saved => saved.sequence name]
    cases saved.sequence name <;> rfl
  | .updateAt i body => fun s saved => by
    unfold SequenceStep.inPlace SequenceStep.run
    rw [runOn_returned (realizes_updateAt (follows_runModelInPlace body))]
    refine congrArg (keeping s) ?_
    match hget : s.get? i with
    | some (.model nested) =>
      dsimp only
      rw [updateAt_map]
    | none | some (.plain _) =>
      unfold Sequence.updateAt
      rw [hget]
      rfl
  | .attempt step => fun s saved => by
    have hstep := step.realizes_inPlace s saved
    unfold SequenceStep.inPlace SequenceStep.run
    rw [runOn_tryCatch, hstep]
    rcases step.run s saved with ⟨result, saved'⟩
    cases result <;> rfl

theorem follows_runSequenceInPlace : ∀ steps : List SequenceStep,
    (runSequenceInPlace steps).Follows (runSequence steps)
  | [] => fun s saved => by
    unfold runSequenceInPlace runSequence
    rfl
  | step :: rest => fun s saved => by
    have hstep := step.realizes_inPlace s saved
    unfold runSequenceInPlace runSequence
    rw [runOn_bind, hstep]
    rcases step.run s saved with ⟨result, saved'⟩
    cases result with
    | error e => exact ⟨s, rfl⟩
    | ok result =>
      obtain ⟨answer, after⟩ := result
      have hrest := follows_runSequenceInPlace rest after saved'
      dsimp only [keeping]
      rw [runOn_bind, runOn_get]
      dsimp only
      rw [runOn_bind]
      rcases hrun : runSequence rest after saved' with ⟨outcome, saved''⟩
      rw [hrun] at hrest
      cases outcome with
      | error e =>
        obtain ⟨left, hleft⟩ := hrest
        exact ⟨left, by rw [hleft]⟩
      | ok last =>
        rw [show (runSequenceInPlace rest).runOn after saved' = _ from hrest]
        rfl
end

/-- In a log that starts from `before`, a step whose failure was caught shows what was there before it. -/
def CaughtLeaves (before : Instance) : List Entry → Prop
  | [] => True
  | entry :: rest => (entry.answer.isCaught → entry.state = before) ∧ CaughtLeaves entry.state rest

theorem ModelStep.leavesCaught_inPlace (step : ModelStep) : step.inPlace.LeavesCaught := by
  intro m saved e after saved' h
  rw [step.realizes_inPlace] at h
  rcases hrun : step.run m saved with ⟨result, between⟩
  rw [hrun] at h
  cases result with
  | ok result =>
    obtain ⟨answer, last⟩ := result
    obtain ⟨hanswer, rfl⟩ := Prod.mk.inj (Prod.mk.inj h).1
    obtain rfl := Except.ok.inj hanswer
    exact step.eq_of_isCaught hrun rfl
  | error e' => cases (Prod.mk.inj (Prod.mk.inj h).1).1

theorem SequenceStep.leavesCaught_inPlace (step : SequenceStep) : step.inPlace.LeavesCaught := by
  intro s saved e after saved' h
  rw [step.realizes_inPlace] at h
  rcases hrun : step.run s saved with ⟨result, between⟩
  rw [hrun] at h
  cases result with
  | ok result =>
    obtain ⟨answer, last⟩ := result
    obtain ⟨hanswer, rfl⟩ := Prod.mk.inj (Prod.mk.inj h).1
    obtain rfl := Except.ok.inj hanswer
    exact step.eq_of_isCaught hrun rfl
  | error e' => cases (Prod.mk.inj (Prod.mk.inj h).1).1

/-- Whenever the operation succeeds, its log shows that caught failures left the instance. -/
def InPlace.LogsCaught {σ : Type} (view : σ → Instance) (op : InPlace σ (List Entry)) : Prop :=
  ∀ before saved entries after saved', op.runOn before saved = ((.ok entries, after), saved') →
    CaughtLeaves (view before) entries

private theorem caughtLeaves_runModel (steps : List ModelStep) : ∀ {m last : Model} {saved saved' : Saved}
    {entries : List Entry}, runModel steps m saved = (.ok (entries, last), saved') →
      CaughtLeaves (.model m) entries := by
  induction steps with
  | nil =>
    intro m last saved saved' entries h
    rw [runModel] at h
    obtain ⟨rfl, _⟩ := Prod.mk.inj (Except.ok.inj (Prod.mk.inj h).1)
    trivial
  | cons step rest ih =>
    intro m last saved saved' entries h
    obtain ⟨answer, after, between, others, hstep, hrest, rfl⟩ := exists_of_runModel_cons h
    exact ⟨fun hc => congrArg Instance.model (step.eq_of_isCaught hstep hc), ih hrest⟩

private theorem caughtLeaves_runSequence (steps : List SequenceStep) : ∀ {s last : Sequence} {saved saved' : Saved}
    {entries : List Entry}, runSequence steps s saved = (.ok (entries, last), saved') →
      CaughtLeaves (.sequence s) entries := by
  induction steps with
  | nil =>
    intro s last saved saved' entries h
    rw [runSequence] at h
    obtain ⟨rfl, _⟩ := Prod.mk.inj (Except.ok.inj (Prod.mk.inj h).1)
    trivial
  | cons step rest ih =>
    intro s last saved saved' entries h
    obtain ⟨answer, after, between, others, hstep, hrest, rfl⟩ := exists_of_runSequence_cons h
    exact ⟨fun hc => congrArg Instance.sequence (step.eq_of_isCaught hstep hc), ih hrest⟩

theorem logsCaught_runModelInPlace (body : List ModelStep) : (runModelInPlace body).LogsCaught .model :=
  fun _ _ _ _ _ h => caughtLeaves_runModel body ((follows_runModelInPlace body).eq_ok h)

theorem logsCaught_runSequenceInPlace (body : List SequenceStep) :
    (runSequenceInPlace body).LogsCaught .sequence :=
  fun _ _ _ _ _ h => caughtLeaves_runSequence body ((follows_runSequenceInPlace body).eq_ok h)

/-- At every level, a step in place that fails leaves its instance as it was: a step of a program, whatever
its body does first; a step of a body that catches the failure and goes on, in the log of that body too; and
a change of nested values by any closure. Where a step succeeds, it does what the step does that yields a new
instance. -/
theorem failure_leaves_instance :
    (∀ step : ModelStep, step.inPlace.IsAtomic ∧ step.inPlace.LeavesCaught ∧
      step.inPlace.Realizes step.run) ∧
    (∀ step : SequenceStep, step.inPlace.IsAtomic ∧ step.inPlace.LeavesCaught ∧
      step.inPlace.Realizes step.run) ∧
    (∀ body : List ModelStep, (runModelInPlace body).LogsCaught .model) ∧
    (∀ body : List SequenceStep, (runSequenceInPlace body).LogsCaught .sequence) ∧
    (∀ (α : Type) (name : String) (f : InPlace Model α), (InPlace.withModel name f).IsAtomic) ∧
    (∀ (α : Type) (name : String) (f : InPlace Sequence α), (InPlace.withSequence name f).IsAtomic) ∧
    ∀ (α : Type) (i : Nat) (f : InPlace Model α), (InPlace.updateAt i f).IsAtomic := by
  refine ⟨fun step => ?_, fun step => ?_, logsCaught_runModelInPlace, logsCaught_runSequenceInPlace,
    fun α name f => ?_, fun α name f => ?_, fun α i f => ?_⟩
  · exact ⟨step.realizes_inPlace.isAtomic, step.leavesCaught_inPlace, step.realizes_inPlace⟩
  · exact ⟨step.realizes_inPlace.isAtomic, step.leavesCaught_inPlace, step.realizes_inPlace⟩
  · exact (realizes_withModel f.follows_outcome fun _ => .error .nothingThere).isAtomic
  · exact (realizes_withSequence f.follows_outcome fun _ => .error .nothingThere).isAtomic
  · exact (realizes_updateAt f.follows_outcome).isAtomic

end SchemaBound
