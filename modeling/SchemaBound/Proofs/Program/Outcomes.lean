import SchemaBound.Program.Run
import SchemaBound.Proofs.Instance.Writes

/-! Outcomes of steps: where answers come from, and what is left of a failure that is passed over. -/
namespace SchemaBound
open Success

/-- The step failed and was passed over. -/
def Answer.isCaught : Answer → Bool
  | .caught _ => true
  | _ => false

variable {saved saved' : Saved} {answer : Answer}

/-- A failure becomes an answer, with what was there before. -/
def Outcome.passOver {β : Type} (before : β) : Outcome Answer β → Outcome Answer β
  | (.ok result, saved) => (.ok result, saved)
  | (.error e, saved) => (.ok (.caught e, before), saved)

/-- A step that is passed over when it fails either succeeds or leaves what was there before. -/
theorem Outcome.passOver_eq_ok {β : Type} {outcome : Outcome Answer β} {before after : β} :
    outcome.passOver before = (.ok (answer, after), saved') ↔
      outcome = (.ok (answer, after), saved') ∨
        ∃ e, outcome = (.error e, saved') ∧ answer = .caught e ∧ after = before := by
  rcases outcome with ⟨result, between⟩
  cases result with
  | ok result => simp [passOver]
  | error e =>
    simp only [passOver, Prod.mk.injEq, Except.ok.injEq, reduceCtorEq, false_and, false_or,
      Except.error.injEq]
    constructor
    · rintro ⟨⟨rfl, rfl⟩, rfl⟩
      exact ⟨e, ⟨rfl, rfl⟩, rfl, rfl⟩
    · rintro ⟨e', ⟨rfl, rfl⟩, rfl, rfl⟩
      exact ⟨⟨rfl, rfl⟩, rfl⟩

theorem Outcome.of_eq_ok {β : Type} {answer? : β → Answer} {result : Except Error β} {after : β} :
    Outcome.of saved answer? result = (.ok (answer, after), saved') ↔
      result = .ok after ∧ answer = answer? after ∧ saved' = saved := by
  unfold Outcome.of
  simp only [Prod.mk.injEq, map_eq_ok]
  constructor
  · rintro ⟨⟨after', hafter, rfl, rfl⟩, rfl⟩
    exact ⟨hafter, rfl, rfl⟩
  · rintro ⟨hafter, rfl, rfl⟩
    exact ⟨⟨after, hafter, rfl, rfl⟩, rfl⟩

variable [Memory]

theorem ModelStep.run_attempt (step : ModelStep) (m : Model) (saved : Saved) :
    (ModelStep.attempt step).run m saved = (step.run m saved).passOver m := by
  rw [run]
  rcases step.run m saved with ⟨result, between⟩
  cases result <;> rfl

theorem SequenceStep.run_attempt (step : SequenceStep) (s : Sequence) (saved : Saved) :
    (SequenceStep.attempt step).run s saved = (step.run s saved).passOver s := by
  rw [run]
  rcases step.run s saved with ⟨result, between⟩
  cases result <;> rfl

section Bodies

variable {m after : Model} {s last : Sequence} {name : String}

/-- A change of a nested model that succeeds ran its body on that model to the end. -/
theorem ModelStep.exists_of_run_withModel {body : List ModelStep}
    (h : (ModelStep.withModel name body).run m saved = (.ok (answer, after), saved')) :
    ∃ nested entries changed, m.model? name = some nested ∧
      runModel body nested saved = (.ok (entries, changed), saved') ∧ answer = .nested entries ∧
      m.withModel name (fun _ => .ok (answer, changed)) = .ok (answer, after) := by
  unfold run at h
  cases hnested : m.model? name with
  | none =>
    rw [hnested] at h
    obtain ⟨_, _, nested, _, hslot, _⟩ := Model.withModel_eq_ok.mp (Prod.mk.inj h).1
    cases hnested.symm.trans (Model.model?_of_slotOf? hslot)
  | some nested =>
    rw [hnested] at h
    dsimp only at h
    rcases hbody : runModel body nested saved with ⟨outcome, between⟩
    rw [hbody] at h
    obtain ⟨hwith, rfl⟩ := Prod.mk.inj h
    obtain ⟨_, _, _, changed, _, hchanged, _⟩ := Model.withModel_eq_ok.mp hwith
    obtain ⟨⟨entries, changed⟩, rfl, heq⟩ := map_eq_ok.mp hchanged
    obtain ⟨rfl, rfl⟩ := Prod.mk.inj heq
    exact ⟨nested, entries, changed, rfl, hbody, rfl, hwith⟩

/-- A change of a nested sequence that succeeds ran its body on that sequence to the end. -/
theorem ModelStep.exists_of_run_withSequence {body : List SequenceStep}
    (h : (ModelStep.withSequence name body).run m saved = (.ok (answer, after), saved')) :
    ∃ nested entries changed, m.sequence? name = some nested ∧
      runSequence body nested saved = (.ok (entries, changed), saved') ∧ answer = .nested entries ∧
      m.withSequence name (fun _ => .ok (answer, changed)) = .ok (answer, after) := by
  unfold run at h
  cases hnested : m.sequence? name with
  | none =>
    rw [hnested] at h
    obtain ⟨_, _, nested, _, hslot, _⟩ := Model.withSequence_eq_ok.mp (Prod.mk.inj h).1
    cases hnested.symm.trans (Model.sequence?_of_slotOf? hslot)
  | some nested =>
    rw [hnested] at h
    dsimp only at h
    rcases hbody : runSequence body nested saved with ⟨outcome, between⟩
    rw [hbody] at h
    obtain ⟨hwith, rfl⟩ := Prod.mk.inj h
    obtain ⟨_, _, _, changed, _, hchanged, _⟩ := Model.withSequence_eq_ok.mp hwith
    obtain ⟨⟨entries, changed⟩, rfl, heq⟩ := map_eq_ok.mp hchanged
    obtain ⟨rfl, rfl⟩ := Prod.mk.inj heq
    exact ⟨nested, entries, changed, rfl, hbody, rfl, hwith⟩

/-- A change of an element that succeeds ran its body on the model there to the end. -/
theorem SequenceStep.exists_of_run_updateAt {i : Nat} {body : List ModelStep}
    (h : (SequenceStep.updateAt i body).run s saved = (.ok (answer, last), saved')) :
    ∃ nested entries changed, s.get? i = some (.model nested) ∧
      runModel body nested saved = (.ok (entries, changed), saved') ∧ answer = .nested entries ∧
      s.updateAt i (fun _ => .ok (answer, changed)) = .ok (answer, last) := by
  unfold run at h
  split at h
  · rename_i nested hnested
    rcases hbody : runModel body nested saved with ⟨outcome, between⟩
    rw [hbody] at h
    obtain ⟨hupdate, rfl⟩ := Prod.mk.inj h
    obtain ⟨_, changed, _, hchanged, _⟩ := Sequence.updateAt_eq_ok.mp hupdate
    obtain ⟨⟨entries, changed⟩, rfl, heq⟩ := map_eq_ok.mp hchanged
    obtain ⟨rfl, rfl⟩ := Prod.mk.inj heq
    exact ⟨nested, entries, changed, hnested, hbody, rfl, hupdate⟩
  · rename_i hnone
    obtain ⟨nested, _, hnested, _⟩ := Sequence.updateAt_eq_ok.mp (Prod.mk.inj h).1
    exact absurd hnested (hnone nested)

/-- A program that succeeds ran its first step and then the others on what that left. -/
theorem exists_of_runModel_cons {step : ModelStep} {rest : List ModelStep} {entries : List Entry}
    (h : runModel (step :: rest) m saved = (.ok (entries, after), saved')) :
    ∃ answer next between others, step.run m saved = (.ok (answer, next), between) ∧
      runModel rest next between = (.ok (others, after), saved') ∧
      entries = ⟨answer, .model next⟩ :: others := by
  rw [runModel] at h
  rcases hstep : step.run m saved with ⟨result, between⟩
  rw [hstep] at h
  cases result with
  | error e => cases (Prod.mk.inj h).1
  | ok result =>
    obtain ⟨answer, next⟩ := result
    obtain ⟨⟨others, _⟩, hrest, hentries⟩ := map_eq_ok.mp (Prod.mk.inj h).1
    obtain ⟨rfl, rfl⟩ := Prod.mk.inj hentries
    exact ⟨answer, next, between, others, rfl, Prod.ext hrest (Prod.mk.inj h).2, rfl⟩

/-- A program that succeeds ran its first step and then the others on what that left. -/
theorem exists_of_runSequence_cons {step : SequenceStep} {rest : List SequenceStep} {entries : List Entry}
    (h : runSequence (step :: rest) s saved = (.ok (entries, last), saved')) :
    ∃ answer next between others, step.run s saved = (.ok (answer, next), between) ∧
      runSequence rest next between = (.ok (others, last), saved') ∧
      entries = ⟨answer, .sequence next⟩ :: others := by
  rw [runSequence] at h
  rcases hstep : step.run s saved with ⟨result, between⟩
  rw [hstep] at h
  cases result with
  | error e => cases (Prod.mk.inj h).1
  | ok result =>
    obtain ⟨answer, next⟩ := result
    obtain ⟨⟨others, _⟩, hrest, hentries⟩ := map_eq_ok.mp (Prod.mk.inj h).1
    obtain ⟨rfl, rfl⟩ := Prod.mk.inj hentries
    exact ⟨answer, next, between, others, rfl, Prod.ext hrest (Prod.mk.inj h).2, rfl⟩

end Bodies

/-- Only a step that passes over a failure is answered by one, and it leaves the model. -/
theorem ModelStep.eq_of_isCaught : ∀ (step : ModelStep) {m after : Model} {saved saved' : Saved}
    {answer : Answer}, step.run m saved = (.ok (answer, after), saved') → answer.isCaught → after = m
  | .set name input, m, after, saved, saved', answer, h, hc
  | .replace name input, m, after, saved, saved', answer, h, hc
  | .unset name, m, after, saved, saved', answer, h, hc
  | .setData data, m, after, saved, saved', answer, h, hc
  | .updateData data, m, after, saved, saved', answer, h, hc
  | .setPointer pointer v, m, after, saved, saved', answer, h, hc
  | .unsetPointer pointer, m, after, saved, saved', answer, h, hc
  | .restore name, m, after, saved, saved', answer, h, hc => by
    rw [run, Outcome.of_eq_ok] at h
    rw [h.2.1] at hc
    cases hc
  | .validate candidate, m, after, saved, saved', answer, h, hc
  | .compare name, m, after, saved, saved', answer, h, hc => by
    rw [run] at h
    obtain ⟨_, _, hanswer⟩ := map_eq_ok.mp (Prod.mk.inj h).1
    exact (Prod.mk.inj hanswer).2.symm
  | .integers, m, after, saved, saved', answer, h, hc => by
    rw [run] at h
    split at h
    · exact (Prod.mk.inj (Except.ok.inj (Prod.mk.inj h).1)).2.symm
    · cases (Prod.mk.inj h).1
  | .look, m, after, saved, saved', answer, h, hc
  | .save name, m, after, saved, saved', answer, h, hc => by
    rw [run] at h
    exact (Prod.mk.inj (Except.ok.inj (Prod.mk.inj h).1)).2.symm
  | .clear, m, after, saved, saved', answer, h, hc => by
    rw [run] at h
    obtain ⟨rfl, _⟩ := Prod.mk.inj (Except.ok.inj (Prod.mk.inj h).1)
    cases hc
  | .withModel name body, m, after, saved, saved', answer, h, hc => by
    obtain ⟨_, _, _, _, _, rfl, _⟩ := exists_of_run_withModel h
    cases hc
  | .withSequence name body, m, after, saved, saved', answer, h, hc => by
    obtain ⟨_, _, _, _, _, rfl, _⟩ := exists_of_run_withSequence h
    cases hc
  | .attempt step, m, after, saved, saved', answer, h, hc => by
    rw [run_attempt] at h
    rcases Outcome.passOver_eq_ok.mp h with h | ⟨_, _, _, rfl⟩
    · exact step.eq_of_isCaught h hc
    · rfl

/-- Only a step that passes over a failure is answered by one, and it leaves the sequence. -/
theorem SequenceStep.eq_of_isCaught : ∀ (step : SequenceStep) {s after : Sequence} {saved saved' : Saved}
    {answer : Answer}, step.run s saved = (.ok (answer, after), saved') → answer.isCaught → after = s
  | .append input, s, after, saved, saved', answer, h, hc
  | .push inputs, s, after, saved, saved', answer, h, hc
  | .prepend inputs, s, after, saved, saved', answer, h, hc
  | .setAt i input, s, after, saved, saved', answer, h, hc
  | .restore name, s, after, saved, saved', answer, h, hc => by
    rw [run, Outcome.of_eq_ok] at h
    rw [h.2.1] at hc
    cases hc
  | .removeLast, s, after, saved, saved', answer, h, hc
  | .removeFirst, s, after, saved, saved', answer, h, hc
  | .spliceAt start count inputs, s, after, saved, saved', answer, h, hc => by
    rw [run] at h
    obtain ⟨_, _, hanswer⟩ := map_eq_ok.mp (Prod.mk.inj h).1
    obtain ⟨rfl, _⟩ := Prod.mk.inj hanswer
    cases hc
  | .compare name, s, after, saved, saved', answer, h, hc => by
    rw [run] at h
    obtain ⟨_, _, hanswer⟩ := map_eq_ok.mp (Prod.mk.inj h).1
    exact (Prod.mk.inj hanswer).2.symm
  | .look, s, after, saved, saved', answer, h, hc
  | .save name, s, after, saved, saved', answer, h, hc => by
    rw [run] at h
    exact (Prod.mk.inj (Except.ok.inj (Prod.mk.inj h).1)).2.symm
  | .clear, s, after, saved, saved', answer, h, hc => by
    rw [run] at h
    obtain ⟨rfl, _⟩ := Prod.mk.inj (Except.ok.inj (Prod.mk.inj h).1)
    cases hc
  | .updateAt i body, s, after, saved, saved', answer, h, hc => by
    obtain ⟨_, _, _, _, _, rfl, _⟩ := exists_of_run_updateAt h
    cases hc
  | .attempt step, s, after, saved, saved', answer, h, hc => by
    rw [run_attempt] at h
    rcases Outcome.passOver_eq_ok.mp h with h | ⟨_, _, _, rfl⟩
    · exact step.eq_of_isCaught h hc
    · rfl

end SchemaBound
