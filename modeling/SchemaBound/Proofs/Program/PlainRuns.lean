import SchemaBound.Proofs.Instance.PlainWrites
import SchemaBound.Proofs.Instance.Rebuild
import SchemaBound.Proofs.Program.Reached

/-! Runs that write plain values only, and that what they reach can be built again from its own value. -/
namespace SchemaBound
open Success

/-- The input is a plain value, or there is none. -/
def Input.isPlain : Input → Bool
  | .given (.ok (.plain _)) | .given (.error _) => true
  | _ => false

mutual
/-- The step writes plain values only, at every depth, and exchanges no instance as a whole. -/
def ModelStep.isPlain : ModelStep → Bool
  | .set _ input | .replace _ input => input.isPlain
  | .withModel _ body => modelStepsArePlain body
  | .withSequence _ body => sequenceStepsArePlain body
  | .clear | .restore _ => false
  | .attempt step => step.isPlain
  | _ => true

/-- All steps write plain values only. -/
def modelStepsArePlain : List ModelStep → Bool
  | [] => true
  | step :: rest => step.isPlain && modelStepsArePlain rest

/-- The step writes plain values only, at every depth, and exchanges no sequence as a whole. -/
def SequenceStep.isPlain : SequenceStep → Bool
  | .append input | .setAt _ input => input.isPlain
  | .push inputs | .prepend inputs | .spliceAt _ _ inputs => inputs.all Input.isPlain
  | .updateAt _ body => modelStepsArePlain body
  | .clear | .restore _ => false
  | .attempt step => step.isPlain
  | _ => true

/-- All steps write plain values only. -/
def sequenceStepsArePlain : List SequenceStep → Bool
  | [] => true
  | step :: rest => step.isPlain && sequenceStepsArePlain rest
end

section Inputs

variable {saved : Saved} {input : Input}

theorem Input.plain_of_forModel (hp : input.isPlain) {m : Model} {value : FieldValue}
    (h : input.forModel m saved = .ok value) : ∃ v, value = .plain v := by
  match input, hp with
  | .given (.ok (.plain v)), _ => exact ⟨v, (Except.ok.inj h).symm⟩
  | .given (.error e), _ => cases h

theorem Input.plain_of_forSequence (hp : input.isPlain) {s : Sequence} {e : Element}
    (h : input.forSequence s saved = .ok e) : ∃ v, e = .plain v := by
  match input, hp with
  | .given (.ok (.plain v)), _ => exact ⟨v, (Except.ok.inj h).symm⟩
  | .given (.error e), _ => cases h

theorem Input.plain_of_mapM {inputs : List Input} (hp : inputs.all Input.isPlain) {s : Sequence}
    {elements : List Element} (h : inputs.mapM (Input.forSequence s saved) = .ok elements) :
    ∀ e ∈ elements, ∃ v, e = .plain v := by
  intro e he
  obtain ⟨input, hinput, hread⟩ := exists_of_mem_results h he
  exact Input.plain_of_forSequence (List.all_eq_true.mp hp input hinput) hread

end Inputs

section Keep

/-- The type and soundness are kept, and being committed too. If the step commits, it need not have been
committed before. -/
structure Model.Keeps (m after : Model) (commits : Bool) : Prop where
  type_eq : after.type = m.type
  sound : after.IsSound
  committed : commits ∨ m.IsCommitted → after.IsCommitted

/-- The type and soundness are kept, and being committed too. If the step commits, it need not have been
committed before. -/
structure Sequence.Keeps (s after : Sequence) (commits : Bool) : Prop where
  type_eq : after.type = s.type
  sound : after.IsSound
  committed : commits ∨ s.IsCommitted → after.IsCommitted

theorem Model.IsOf.keeps {m after : Model} (h : after.IsOf m.type) (commits : Bool) :
    m.Keeps after commits :=
  ⟨h.type_eq, h.sound, fun _ => h.committed⟩

theorem Model.Keeps.refl {m : Model} (hs : m.IsSound) : m.Keeps m false :=
  ⟨rfl, hs, fun h => h.resolve_left Bool.false_ne_true⟩

theorem Model.Keeps.isOf {m after : Model} {commits : Bool} (h : m.Keeps after commits) {type : ModelType}
    (hm : m.IsOf type) : after.IsOf type :=
  ⟨h.type_eq.trans hm.type_eq, h.committed (Or.inr hm.committed), h.sound⟩

theorem Sequence.IsOf.keeps {s after : Sequence} (h : after.IsOf s.type) (commits : Bool) :
    s.Keeps after commits :=
  ⟨h.type_eq, h.sound, fun _ => h.committed⟩

theorem Sequence.Keeps.refl {s : Sequence} (hs : s.IsSound) : s.Keeps s false :=
  ⟨rfl, hs, fun h => h.resolve_left Bool.false_ne_true⟩

theorem Sequence.Keeps.isOf {s after : Sequence} {commits : Bool} (h : s.Keeps after commits)
    {type : SequenceType} (hs : s.IsOf type) : after.IsOf type :=
  ⟨h.type_eq.trans hs.type_eq, h.committed (Or.inr hs.committed), h.sound⟩

variable [Memory]

mutual
/-- A step that writes plain values keeps a model sound, and commits it if it is a write. -/
theorem ModelStep.keeps_of_run : ∀ (step : ModelStep) {m after : Model} {saved saved' : Saved}
    {answer : Answer}, step.isPlain → m.type.Throughout Blueprint.IsReadable → m.IsSound →
    step.run m saved = (.ok (answer, after), saved') → m.Keeps after step.isWrite
  | .set name input, m, after, saved, saved', answer, hp, hc, hs, h => by
    rw [ModelStep.run, Outcome.of_eq_ok, bind_eq_ok] at h
    obtain ⟨⟨value, hvalue, hset⟩, _⟩ := h
    obtain ⟨v, rfl⟩ := Input.plain_of_forModel (by simpa [ModelStep.isPlain] using hp) hvalue
    exact (Model.isOf_of_set hc hs hset).keeps _
  | .replace name input, m, after, saved, saved', answer, hp, hc, hs, h => by
    rw [ModelStep.run, Outcome.of_eq_ok, bind_eq_ok] at h
    obtain ⟨⟨value, hvalue, hreplace⟩, _⟩ := h
    obtain ⟨v, rfl⟩ := Input.plain_of_forModel (by simpa [ModelStep.isPlain] using hp) hvalue
    exact (Model.isOf_of_replace hc hs hreplace).keeps _
  | .unset name, m, after, saved, saved', answer, hp, hc, hs, h => by
    rw [ModelStep.run, Outcome.of_eq_ok] at h
    exact (Model.isOf_of_unset hc hs h.1).keeps _
  | .setData data, m, after, saved, saved', answer, hp, hc, hs, h => by
    rw [ModelStep.run, Outcome.of_eq_ok] at h
    exact (Model.isOf_of_setData hc h.1).keeps _
  | .updateData data, m, after, saved, saved', answer, hp, hc, hs, h => by
    rw [ModelStep.run, Outcome.of_eq_ok] at h
    exact (Model.isOf_of_updateData hc hs h.1).keeps _
  | .setPointer pointer v, m, after, saved, saved', answer, hp, hc, hs, h => by
    rw [ModelStep.run, Outcome.of_eq_ok] at h
    exact (Model.isOf_of_setPointer hc hs h.1).keeps _
  | .unsetPointer pointer, m, after, saved, saved', answer, hp, hc, hs, h => by
    rw [ModelStep.run, Outcome.of_eq_ok] at h
    exact (Model.isOf_of_unsetPointer hc hs h.1).keeps _
  | .validate candidate, m, after, saved, saved', answer, hp, hc, hs, h
  | .compare name, m, after, saved, saved', answer, hp, hc, hs, h => by
    rw [ModelStep.run] at h
    obtain ⟨_, _, hanswer⟩ := map_eq_ok.mp (Prod.mk.inj h).1
    obtain ⟨_, rfl⟩ := Prod.mk.inj hanswer
    exact .refl hs
  | .integers, m, after, saved, saved', answer, hp, hc, hs, h => by
    rw [ModelStep.run] at h
    split at h
    · obtain ⟨_, rfl⟩ := Prod.mk.inj (Except.ok.inj (Prod.mk.inj h).1)
      exact .refl hs
    · cases (Prod.mk.inj h).1
  | .look, m, after, saved, saved', answer, hp, hc, hs, h
  | .save name, m, after, saved, saved', answer, hp, hc, hs, h => by
    rw [ModelStep.run] at h
    obtain ⟨_, rfl⟩ := Prod.mk.inj (Except.ok.inj (Prod.mk.inj h).1)
    exact .refl hs
  | .withModel name body, m, after, saved, saved', answer, hp, hc, hs, h => by
    rw [ModelStep.isPlain] at hp
    obtain ⟨nested, entries, changed, hnested, hbody, rfl, hwith⟩ := ModelStep.exists_of_run_withModel h
    refine (Model.isOf_of_withModel hc hs (fun type nested' changed' htype hnested' hof heq => ?_) hwith).keeps _
    obtain rfl := Option.some.inj (hnested.symm.trans hnested')
    obtain ⟨_, rfl⟩ := Prod.mk.inj (Except.ok.inj heq)
    exact isOf_of_runModel body hp htype hof hbody
  | .withSequence name body, m, after, saved, saved', answer, hp, hc, hs, h => by
    rw [ModelStep.isPlain] at hp
    obtain ⟨nested, entries, changed, hnested, hbody, rfl, hwith⟩ := ModelStep.exists_of_run_withSequence h
    refine (Model.isOf_of_withSequence hc hs (fun type nested' changed' htype hnested' hof heq => ?_) hwith).keeps _
    obtain rfl := Option.some.inj (hnested.symm.trans hnested')
    obtain ⟨_, rfl⟩ := Prod.mk.inj (Except.ok.inj heq)
    exact isOf_of_runSequence body hp htype hof hbody
  | .attempt step, m, after, saved, saved', answer, hp, hc, hs, h => by
    rw [ModelStep.isPlain] at hp
    rw [ModelStep.run_attempt] at h
    rcases Outcome.passOver_eq_ok.mp h with h | ⟨_, _, _, rfl⟩
    · obtain ⟨htype, hsound, hcommitted⟩ := step.keeps_of_run hp hc hs h
      exact ⟨htype, hsound, fun hm => hcommitted (hm.imp_left fun hw => (nomatch hw))⟩
    · exact .refl hs
  | .clear, m, after, saved, saved', answer, hp, hc, hs, h
  | .restore _, m, after, saved, saved', answer, hp, hc, hs, h => by
    simp [ModelStep.isPlain] at hp

/-- A body that writes plain values keeps a copy committed and sound. -/
theorem isOf_of_runModel : ∀ (steps : List ModelStep) {type : ModelType} {m last : Model}
    {saved saved' : Saved} {entries : List Entry}, modelStepsArePlain steps →
    type.Throughout Blueprint.IsReadable → m.IsOf type → runModel steps m saved = (.ok (entries, last), saved') →
    last.IsOf type
  | [], type, m, last, saved, saved', entries, hp, hc, hm, h => by
    rw [runModel] at h
    obtain ⟨_, rfl⟩ := Prod.mk.inj (Except.ok.inj (Prod.mk.inj h).1)
    exact hm
  | step :: rest, type, m, last, saved, saved', entries, hp, hc, hm, h => by
    rw [modelStepsArePlain, Bool.and_eq_true] at hp
    obtain ⟨answer, after, between, others, hstep, hrest, rfl⟩ := exists_of_runModel_cons h
    have hafter := (step.keeps_of_run hp.1 (hm.type_eq ▸ hc) hm.sound hstep).isOf hm
    exact isOf_of_runModel rest hp.2 hc hafter hrest

/-- A step that writes plain values keeps a sequence sound, and commits it if it is a write that finds
something to do. -/
theorem SequenceStep.keeps_of_run : ∀ (step : SequenceStep) {s after : Sequence} {saved saved' : Saved}
    {answer : Answer}, step.isPlain → s.type.Throughout Blueprint.IsReadable → s.IsSound →
    step.run s saved = (.ok (answer, after), saved') → s.Keeps after (step.isWrite && step.commitsOn s)
  | .append input, s, after, saved, saved', answer, hp, hc, hs, h => by
    rw [SequenceStep.run, Outcome.of_eq_ok, bind_eq_ok] at h
    obtain ⟨⟨e, he, happend⟩, _⟩ := h
    obtain ⟨v, rfl⟩ := Input.plain_of_forSequence (by simpa [SequenceStep.isPlain] using hp) he
    exact (Sequence.isOf_of_append hc hs happend).keeps _
  | .push inputs, s, after, saved, saved', answer, hp, hc, hs, h => by
    rw [SequenceStep.run, Outcome.of_eq_ok, bind_eq_ok] at h
    obtain ⟨⟨elements, helements, hpush⟩, _⟩ := h
    have hplain := Input.plain_of_mapM (by simpa only [SequenceStep.isPlain] using hp) helements
    exact (Sequence.isOf_of_push hc hs hplain hpush).keeps _
  | .prepend inputs, s, after, saved, saved', answer, hp, hc, hs, h => by
    rw [SequenceStep.run, Outcome.of_eq_ok, bind_eq_ok] at h
    obtain ⟨⟨elements, helements, hprepend⟩, _⟩ := h
    have hplain := Input.plain_of_mapM (by simpa only [SequenceStep.isPlain] using hp) helements
    exact (Sequence.isOf_of_prepend hc hs hplain hprepend).keeps _
  | .removeLast, s, after, saved, saved', answer, hp, hc, hs, h => by
    rw [SequenceStep.run] at h
    obtain ⟨⟨removed, after'⟩, hremove, hafter⟩ := map_eq_ok.mp (Prod.mk.inj h).1
    obtain ⟨_, rfl⟩ := Prod.mk.inj hafter
    rcases Sequence.isOf_of_removeLast hc hs hremove with ⟨hempty, rfl⟩ | hof
    · have hnothing : SequenceStep.commitsOn after' .removeLast = false := by
        simp [SequenceStep.commitsOn, hempty]
      rw [hnothing, Bool.and_false]
      exact .refl hs
    · exact hof.keeps _
  | .removeFirst, s, after, saved, saved', answer, hp, hc, hs, h => by
    rw [SequenceStep.run] at h
    obtain ⟨⟨removed, after'⟩, hremove, hafter⟩ := map_eq_ok.mp (Prod.mk.inj h).1
    obtain ⟨_, rfl⟩ := Prod.mk.inj hafter
    rcases Sequence.isOf_of_removeFirst hc hs hremove with ⟨hempty, rfl⟩ | hof
    · have hnothing : SequenceStep.commitsOn after' .removeFirst = false := by
        simp [SequenceStep.commitsOn, hempty]
      rw [hnothing, Bool.and_false]
      exact .refl hs
    · exact hof.keeps _
  | .setAt i input, s, after, saved, saved', answer, hp, hc, hs, h => by
    rw [SequenceStep.run, Outcome.of_eq_ok, bind_eq_ok] at h
    obtain ⟨⟨e, he, hset⟩, _⟩ := h
    obtain ⟨v, rfl⟩ := Input.plain_of_forSequence (by simpa [SequenceStep.isPlain] using hp) he
    exact (Sequence.isOf_of_setAt hc hs hset).keeps _
  | .spliceAt start count inputs, s, after, saved, saved', answer, hp, hc, hs, h => by
    rw [SequenceStep.run] at h
    obtain ⟨⟨removed, after'⟩, hsplice, hafter⟩ := map_eq_ok.mp (Prod.mk.inj h).1
    obtain ⟨_, rfl⟩ := Prod.mk.inj hafter
    obtain ⟨elements, helements, hsplice⟩ := bind_eq_ok.mp hsplice
    have hplain := Input.plain_of_mapM (by simpa only [SequenceStep.isPlain] using hp) helements
    exact (Sequence.isOf_of_spliceAt hc hs hplain hsplice).keeps _
  | .compare name, s, after, saved, saved', answer, hp, hc, hs, h => by
    rw [SequenceStep.run] at h
    obtain ⟨_, _, hanswer⟩ := map_eq_ok.mp (Prod.mk.inj h).1
    obtain ⟨_, rfl⟩ := Prod.mk.inj hanswer
    exact .refl hs
  | .look, s, after, saved, saved', answer, hp, hc, hs, h
  | .save name, s, after, saved, saved', answer, hp, hc, hs, h => by
    rw [SequenceStep.run] at h
    obtain ⟨_, rfl⟩ := Prod.mk.inj (Except.ok.inj (Prod.mk.inj h).1)
    exact .refl hs
  | .updateAt i body, s, after, saved, saved', answer, hp, hc, hs, h => by
    rw [SequenceStep.isPlain] at hp
    obtain ⟨nested, entries, changed, hnested, hbody, rfl, hupdate⟩ := SequenceStep.exists_of_run_updateAt h
    refine (Sequence.isOf_of_updateAt hc hs (fun type nested' changed' htype hnested' hof heq => ?_)
      hupdate).keeps _
    obtain rfl := Element.model.inj (Option.some.inj (hnested.symm.trans hnested'))
    obtain ⟨_, rfl⟩ := Prod.mk.inj (Except.ok.inj heq)
    exact isOf_of_runModel body hp htype hof hbody
  | .attempt step, s, after, saved, saved', answer, hp, hc, hs, h => by
    rw [SequenceStep.isPlain] at hp
    rw [SequenceStep.run_attempt] at h
    rcases Outcome.passOver_eq_ok.mp h with h | ⟨_, _, _, rfl⟩
    · obtain ⟨htype, hsound, hcommitted⟩ := step.keeps_of_run hp hc hs h
      exact ⟨htype, hsound, fun hm => hcommitted (hm.imp_left fun hw => (nomatch hw))⟩
    · exact .refl hs
  | .clear, s, after, saved, saved', answer, hp, hc, hs, h
  | .restore _, s, after, saved, saved', answer, hp, hc, hs, h => by
    simp [SequenceStep.isPlain] at hp

/-- A body that writes plain values keeps a copy committed and sound. -/
theorem isOf_of_runSequence : ∀ (steps : List SequenceStep) {type : SequenceType} {s last : Sequence}
    {saved saved' : Saved} {entries : List Entry}, sequenceStepsArePlain steps →
    type.Throughout Blueprint.IsReadable → s.IsOf type →
    runSequence steps s saved = (.ok (entries, last), saved') → last.IsOf type
  | [], type, s, last, saved, saved', entries, hp, hc, hs, h => by
    rw [runSequence] at h
    obtain ⟨_, rfl⟩ := Prod.mk.inj (Except.ok.inj (Prod.mk.inj h).1)
    exact hs
  | step :: rest, type, s, last, saved, saved', entries, hp, hc, hs, h => by
    rw [sequenceStepsArePlain, Bool.and_eq_true] at hp
    obtain ⟨answer, after, between, others, hstep, hrest, rfl⟩ := exists_of_runSequence_cons h
    have hafter := (step.keeps_of_run hp.1 (hs.type_eq ▸ hc) hs.sound hstep).isOf hs
    exact isOf_of_runSequence rest hp.2 hc hafter hrest
end

end Keep

section Rebuild

variable {judge : Json → Json → List Violation} {options : Options}

/-- The step writes plain values through operations that check what they store. -/
def ModelStep.isPlainWrite (step : ModelStep) : Bool := step.isWrite && step.isPlain

/-- The step writes plain values through operations that check what they store. -/
def SequenceStep.isPlainWrite (step : SequenceStep) : Bool := step.isWrite && step.isPlain

theorem ModelType.isSound_empty (type : ModelType) : type.empty.IsSound := by
  refine Model.isSound_iff.mpr (slotsFit_iff.mpr (List.forall₂_map_right_iff.mpr ?_))
  exact List.forall₂_same.mpr fun _ _ => slotFits_none

theorem SequenceType.isSound_empty (type : SequenceType) : type.empty.IsSound :=
  Sequence.isSound_iff.mpr (elementsFit_iff.mpr fun _ h => absurd h List.not_mem_nil)

/-- What runs of plain writes reach is sound, and committed from the first commit on. -/
theorem ModelType.Reached.type_eq_and_isSound [Memory] {type : ModelType} (hc : type.Throughout Blueprint.IsReadable)
    {committed : Bool} {m : Model} (h : type.Reached ModelStep.isPlainWrite committed m) :
    m.type = type ∧ m.IsSound ∧ (committed → m.IsCommitted) := by
  refine h.invariant (fun committed m => m.type = type ∧ m.IsSound ∧ (committed → m.IsCommitted)) ?_ ?_ ?_
  · exact ⟨rfl, type.isSound_empty, fun h => absurd h Bool.false_ne_true⟩
  · intro v m hm
    rcases ModelType.create_eq_ok.mp hm with ⟨data, _, hbuild⟩ | ⟨hv, rfl⟩
    · have hof := ModelType.isOf_of_build hc hbuild
      exact ⟨hof.type_eq, hof.sound, fun _ => hof.committed⟩
    · refine ⟨rfl, type.isSound_empty, fun h => ?_⟩
      rw [hv] at h
      cases h
  · intro committed m step saved answer after saved' ⟨htype, hsound, _⟩ hallowed hrun
    obtain ⟨hwrite, hplain⟩ := Bool.and_eq_true_iff.mp hallowed
    have hkeeps := step.keeps_of_run hplain (htype ▸ hc) hsound hrun
    exact ⟨hkeeps.type_eq.trans htype, hkeeps.sound, fun _ => hkeeps.committed (Or.inl hwrite)⟩

/-- What runs of plain writes reach is sound, and committed from the first commit on. -/
theorem SequenceType.Reached.type_eq_and_isSound [Memory] {type : SequenceType}
    (hc : type.Throughout Blueprint.IsReadable) {committed : Bool} {s : Sequence}
    (h : type.Reached SequenceStep.isPlainWrite committed s) :
    s.type = type ∧ s.IsSound ∧ (committed → s.IsCommitted) := by
  refine h.invariant (fun committed s => s.type = type ∧ s.IsSound ∧ (committed → s.IsCommitted)) ?_ ?_ ?_
  · exact ⟨rfl, type.isSound_empty, fun h => absurd h Bool.false_ne_true⟩
  · intro items s hs
    have hof := SequenceType.isOf_of_build hc hs
    exact ⟨hof.type_eq, hof.sound, fun _ => hof.committed⟩
  · intro committed s step saved answer after saved' ⟨htype, hsound, hcommitted⟩ hallowed hrun
    obtain ⟨hwrite, hplain⟩ := Bool.and_eq_true_iff.mp hallowed
    have hkeeps := step.keeps_of_run hplain (htype ▸ hc) hsound hrun
    refine ⟨hkeeps.type_eq.trans htype, hkeeps.sound, fun h => hkeeps.committed ?_⟩
    rcases Bool.or_eq_true_iff.mp h with hbefore | hnow
    · exact Or.inr (hcommitted hbefore)
    · exact Or.inl (Bool.and_eq_true_iff.mpr ⟨hwrite, (Bool.and_eq_true_iff.mp hnow).2⟩)

theorem ModelType.Reached.isOf [Memory] {type : ModelType} (hc : type.IsChecked judge options) {m : Model}
    (h : type.Reached ModelStep.isPlainWrite true m) : m.IsOf type := by
  obtain ⟨htype, hsound, hcommitted⟩ := h.type_eq_and_isSound hc.isReadable
  exact ⟨htype, hcommitted rfl, hsound⟩

theorem SequenceType.Reached.isOf [Memory] {type : SequenceType} (hc : type.IsChecked judge options) {s : Sequence}
    (h : type.Reached SequenceStep.isPlainWrite true s) : s.IsOf type := by
  obtain ⟨htype, hsound, hcommitted⟩ := h.type_eq_and_isSound hc.isReadable
  exact ⟨htype, hcommitted rfl, hsound⟩

/-- The value of a committed and sound model creates a model of that value. -/
theorem Model.IsOf.create_toJson {type : ModelType} (hc : type.IsChecked judge options) {m : Model}
    (h : m.IsOf type) : ∃ m', type.create m.toJson = .ok m' ∧ m'.toJson = m.toJson := by
  obtain ⟨rfl, hcommitted, hsound⟩ := h
  obtain ⟨m', hbuild, hvalue⟩ := Model.exists_rebuilt hc hcommitted hsound
  refine ⟨m', ?_, hvalue⟩
  rw [m.toJson_eq]
  exact hbuild

/-- The value of a committed and sound sequence creates a sequence of that value. -/
theorem Sequence.IsOf.create_toJson {type : SequenceType} (hc : type.IsChecked judge options)
    {s : Sequence} (h : s.IsOf type) :
    ∃ items s', s.toJson = .arr items ∧ type.create items = .ok s' ∧ s'.toJson = s.toJson := by
  obtain ⟨rfl, hcommitted, hsound⟩ := h
  obtain ⟨s', hbuild, hvalue⟩ := Sequence.exists_rebuilt hc hcommitted hsound
  exact ⟨listing s.items, s', s.toJson_eq, hbuild, hvalue⟩

/-- Whatever runs of plain writes reach with a commit can be created from its own value, and what is created
has that same value. So creating from what was created gives the same value again. -/
theorem Schema.create_of_reached [Memory] (schema : Schema) (hd : schema.document.hasDistinctNames) (number : Nat)
    (inspection : Json → Except SchemaError Unit) (judge : Json → Json → List Violation)
    (options : Options) :
    (∀ type, schema.compileModel number (Engine.judging inspection judge) options = .ok type →
      (∀ m, type.Reached ModelStep.isPlainWrite true m →
        m.type = type ∧ ∃ m', type.create m.toJson = .ok m' ∧ m'.toJson = m.toJson) ∧
      ∀ data m, type.create (.obj data) = .ok m →
        ∃ m', type.create m.toJson = .ok m' ∧ m'.toJson = m.toJson) ∧
    ∀ type, schema.compileSequence number (Engine.judging inspection judge) options = .ok type →
      (∀ s, type.Reached SequenceStep.isPlainWrite true s →
        s.type = type ∧
          ∃ items s', s.toJson = .arr items ∧ type.create items = .ok s' ∧ s'.toJson = s.toJson) ∧
      ∀ data s, type.create data = .ok s →
        ∃ items s', s.toJson = .arr items ∧ type.create items = .ok s' ∧ s'.toJson = s.toJson := by
  constructor
  · intro type htype
    have hc := Schema.isChecked_compileModel hd htype
    have hcreate (m : Model) (hm : type.Reached ModelStep.isPlainWrite true m) :
        m.type = type ∧ ∃ m', type.create m.toJson = .ok m' ∧ m'.toJson = m.toJson :=
      ⟨(hm.isOf hc).type_eq, (hm.isOf hc).create_toJson hc⟩
    exact ⟨hcreate, fun data m hm => (hcreate m (.create hm)).2⟩
  · intro type htype
    have hc := Schema.isChecked_compileSequence hd htype
    have hcreate (s : Sequence) (hs : type.Reached SequenceStep.isPlainWrite true s) :
        s.type = type ∧
          ∃ items s', s.toJson = .arr items ∧ type.create items = .ok s' ∧ s'.toJson = s.toJson :=
      ⟨(hs.isOf hc).type_eq, (hs.isOf hc).create_toJson hc⟩
    exact ⟨hcreate, fun data s hs => (hcreate s (.create hs)).2⟩

/-- What is left after refusals can be created from its own value. -/
theorem create_of_reached_after_refusal :
    (∃ type m m', boundFromOutside.compileModel 0 Engine.draft7 .coercing = .ok type ∧
      type.Reached ModelStep.isPlainWrite true m ∧ m.toJson = .obj [("n", .obj [("x", .str "7")])] ∧
      type.create m.toJson = .ok m' ∧ m'.toJson = m.toJson) ∧
    ∃ type s items s', integerList.compileSequence 0 Engine.draft7 .coercing = .ok type ∧
      type.Reached SequenceStep.isPlainWrite true s ∧ s.toJson = .arr [.num (.int 5), .num (.int 7)] ∧
      s.toJson = .arr items ∧ type.create items = .ok s' ∧ s'.toJson = s.toJson := by
  constructor
  · obtain ⟨type, m, htype, hm, hvalue⟩ := exists_reached_nestedChanges ModelStep.isPlainWrite (by decide)
    have hjudged := Engine.draft7_eq_judging ▸ htype
    obtain ⟨_, m', hm', hsame⟩ :=
      ((Schema.create_of_reached boundFromOutside (by decide) 0 _ _ .coercing).1 type hjudged).1 m hm
    exact ⟨type, m, m', htype, hm, hvalue, hm', hsame⟩
  · obtain ⟨type, s, htype, hs, hvalue⟩ := exists_reached_newElements SequenceStep.isPlainWrite (by decide)
    have hjudged := Engine.draft7_eq_judging ▸ htype
    obtain ⟨_, items, s', hitems, hs', hsame⟩ :=
      ((Schema.create_of_reached integerList (by decide) 0 _ _ .coercing).2 type hjudged).1 s hs
    exact ⟨type, s, items, s', htype, hs, hvalue, hitems, hs', hsame⟩

end Rebuild
end SchemaBound
