import SchemaBound.Proofs.Instance.Commit
import SchemaBound.Proofs.Program.Outcomes

/-! The instances that runs of writes can reach, failing steps included, and that they are valid as soon as
one write was committed. -/
namespace SchemaBound
open Success

/-- The step writes through an operation that checks what it stores. -/
def ModelStep.isWrite : ModelStep → Bool
  | .set .. | .replace .. | .unset _ | .setData _ | .updateData _ | .setPointer .. | .unsetPointer _
  | .withModel .. | .withSequence .. => true
  | _ => false

/-- The step writes through an operation that checks what it stores. -/
def SequenceStep.isWrite : SequenceStep → Bool
  | .append _ | .push _ | .prepend _ | .removeLast | .removeFirst | .setAt .. | .spliceAt ..
  | .updateAt .. => true
  | _ => false

/-- A write that succeeds commits, unless it finds nothing to remove. -/
def SequenceStep.commitsOn (s : Sequence) : SequenceStep → Bool
  | .removeLast | .removeFirst => s.size ≠ 0
  | _ => true

section Reach

variable [Memory]

/-- The models that come from an empty or a created one by allowed steps, some of which may fail, whatever
is saved when they run. The flag tells whether anything was committed on the way. -/
inductive ModelType.Reached (type : ModelType) (allowed : ModelStep → Bool) : Bool → Model → Prop
  | empty : type.Reached allowed false type.empty
  | create {v : Json} {m : Model} : type.create v = .ok m → type.Reached allowed v.isObject m
  | step {committed : Bool} {m after : Model} {step : ModelStep} {saved saved' : Saved} {answer : Answer} :
    type.Reached allowed committed m → allowed step →
    (ModelStep.attempt step).run m saved = (.ok (answer, after), saved') →
    type.Reached allowed (committed || !answer.isCaught) after

/-- The sequences that come from an empty or a created one by allowed steps, some of which may fail. -/
inductive SequenceType.Reached (type : SequenceType) (allowed : SequenceStep → Bool) :
    Bool → Sequence → Prop
  | empty : type.Reached allowed false type.empty
  | create {items : List Json} {s : Sequence} : type.create items = .ok s → type.Reached allowed true s
  | step {committed : Bool} {s after : Sequence} {step : SequenceStep} {saved saved' : Saved}
    {answer : Answer} :
    type.Reached allowed committed s → allowed step →
    (SequenceStep.attempt step).run s saved = (.ok (answer, after), saved') →
    type.Reached allowed (committed || (!answer.isCaught && step.commitsOn s)) after

section Steps

variable {saved saved' : Saved} {answer : Answer}

/-- A write that succeeds commits the model. -/
theorem ModelStep.commitsTo_of_run {step : ModelStep} (hw : step.isWrite) {m after : Model}
    (h : step.run m saved = (.ok (answer, after), saved')) : m.CommitsTo after := by
  cases step with
  | set name input =>
    rw [run, Outcome.of_eq_ok, bind_eq_ok] at h
    obtain ⟨⟨value, _, hset⟩, _⟩ := h
    exact Model.commitsTo_set hset
  | replace name input =>
    rw [run, Outcome.of_eq_ok, bind_eq_ok] at h
    obtain ⟨⟨value, _, hreplace⟩, _⟩ := h
    exact Model.commitsTo_replace hreplace
  | unset name =>
    rw [run, Outcome.of_eq_ok] at h
    exact Model.commitsTo_unset h.1
  | setData data =>
    rw [run, Outcome.of_eq_ok] at h
    exact Model.commitsTo_setData h.1
  | updateData data =>
    rw [run, Outcome.of_eq_ok] at h
    exact Model.commitsTo_updateData h.1
  | setPointer pointer v =>
    rw [run, Outcome.of_eq_ok] at h
    exact Model.commitsTo_setPointer h.1
  | unsetPointer pointer =>
    rw [run, Outcome.of_eq_ok] at h
    exact Model.commitsTo_unsetPointer h.1
  | withModel name body =>
    obtain ⟨_, _, _, _, _, _, hwith⟩ := exists_of_run_withModel h
    exact Model.commitsTo_withModel hwith
  | withSequence name body =>
    obtain ⟨_, _, _, _, _, _, hwith⟩ := exists_of_run_withSequence h
    exact Model.commitsTo_withSequence hwith
  | _ => cases hw

/-- A write that succeeds commits the sequence, unless it found nothing to remove. -/
theorem SequenceStep.commitsTo_of_run {step : SequenceStep} (hw : step.isWrite) {s after : Sequence}
    (h : step.run s saved = (.ok (answer, after), saved')) :
    s.CommitsTo after ∨ (step.commitsOn s = false ∧ after = s) := by
  cases step with
  | append input =>
    rw [run, Outcome.of_eq_ok, bind_eq_ok] at h
    obtain ⟨⟨e, _, happend⟩, _⟩ := h
    obtain ⟨e', _, hafter⟩ := Sequence.append_eq_ok.mp happend
    exact Or.inl ⟨_, hafter⟩
  | push inputs =>
    rw [run, Outcome.of_eq_ok, bind_eq_ok] at h
    obtain ⟨⟨elements, _, hpush⟩, _⟩ := h
    obtain ⟨staged, _, hafter⟩ := Sequence.push_eq_ok.mp hpush
    exact Or.inl ⟨_, hafter⟩
  | prepend inputs =>
    rw [run, Outcome.of_eq_ok, bind_eq_ok] at h
    obtain ⟨⟨elements, _, hprepend⟩, _⟩ := h
    obtain ⟨staged, _, hafter⟩ := Sequence.prepend_eq_ok.mp hprepend
    exact Or.inl ⟨_, hafter⟩
  | removeLast =>
    rw [run] at h
    obtain ⟨⟨removed, after'⟩, hremove, hafter⟩ := map_eq_ok.mp (Prod.mk.inj h).1
    obtain ⟨_, rfl⟩ := Prod.mk.inj hafter
    rcases Sequence.removeLast_eq_ok.mp hremove with ⟨hempty, _, rfl⟩ | ⟨_, hcommit⟩
    · exact Or.inr ⟨by simp [commitsOn, Sequence.size, hempty], rfl⟩
    · exact Or.inl ⟨_, hcommit⟩
  | removeFirst =>
    rw [run] at h
    obtain ⟨⟨removed, after'⟩, hremove, hafter⟩ := map_eq_ok.mp (Prod.mk.inj h).1
    obtain ⟨_, rfl⟩ := Prod.mk.inj hafter
    rcases Sequence.removeFirst_eq_ok.mp hremove with ⟨hempty, _, rfl⟩ | ⟨rest, _, hcommit⟩
    · exact Or.inr ⟨by simp [commitsOn, Sequence.size, hempty], rfl⟩
    · exact Or.inl ⟨_, hcommit⟩
  | setAt i input =>
    rw [run, Outcome.of_eq_ok, bind_eq_ok] at h
    obtain ⟨⟨e, _, hset⟩, _⟩ := h
    obtain ⟨_, e', _, hafter⟩ := Sequence.setAt_eq_ok.mp hset
    exact Or.inl ⟨_, hafter⟩
  | spliceAt start count inputs =>
    rw [run] at h
    obtain ⟨⟨removed, after'⟩, hsplice, hafter⟩ := map_eq_ok.mp (Prod.mk.inj h).1
    obtain ⟨_, rfl⟩ := Prod.mk.inj hafter
    obtain ⟨elements, _, hsplice⟩ := bind_eq_ok.mp hsplice
    obtain ⟨_, inserted, _, hcommit⟩ := Sequence.spliceAt_eq_ok.mp hsplice
    exact Or.inl ⟨_, hcommit⟩
  | updateAt i body =>
    obtain ⟨_, _, _, _, _, _, hupdate⟩ := exists_of_run_updateAt h
    obtain ⟨nested, changed, _, _, hcommit⟩ := Sequence.updateAt_eq_ok.mp hupdate
    exact Or.inl ⟨_, hcommit⟩
  | _ => cases hw

end Steps

/-- What holds at the start and is kept by every allowed step that succeeds holds wherever runs lead. -/
theorem ModelType.Reached.invariant {type : ModelType} {allowed : ModelStep → Bool}
    (inv : Bool → Model → Prop) (hempty : inv false type.empty)
    (hcreate : ∀ v m, type.create v = .ok m → inv v.isObject m)
    (hstep : ∀ committed m step saved answer after saved', inv committed m → allowed step →
      step.run m saved = (.ok (answer, after), saved') → inv (committed || !answer.isCaught) after)
    {committed : Bool} {m : Model} (h : type.Reached allowed committed m) : inv committed m := by
  induction h with
  | empty => exact hempty
  | create h => exact hcreate _ _ h
  | step _ hs hrun ih =>
    rw [ModelStep.run_attempt] at hrun
    rcases Outcome.passOver_eq_ok.mp hrun with hrun | ⟨e, _, rfl, rfl⟩
    · exact hstep _ _ _ _ _ _ _ ih hs hrun
    · simpa [Answer.isCaught] using ih

/-- What holds at the start and is kept by every allowed step that succeeds holds wherever runs lead. -/
theorem SequenceType.Reached.invariant {type : SequenceType} {allowed : SequenceStep → Bool}
    (inv : Bool → Sequence → Prop) (hempty : inv false type.empty)
    (hcreate : ∀ items s, type.create items = .ok s → inv true s)
    (hstep : ∀ committed s step saved answer after saved', inv committed s → allowed step →
      step.run s saved = (.ok (answer, after), saved') →
      inv (committed || (!answer.isCaught && step.commitsOn s)) after)
    {committed : Bool} {s : Sequence} (h : type.Reached allowed committed s) : inv committed s := by
  induction h with
  | empty => exact hempty
  | create h => exact hcreate _ _ h
  | step _ hs hrun ih =>
    rw [SequenceStep.run_attempt] at hrun
    rcases Outcome.passOver_eq_ok.mp hrun with hrun | ⟨e, _, rfl, rfl⟩
    · exact hstep _ _ _ _ _ _ _ ih hs hrun
    · simpa [Answer.isCaught] using ih

/-- Whatever the engine, writes change neither the type nor the number of slots. -/
theorem ModelType.Reached.type_eq_and_isAligned {type : ModelType} {committed : Bool} {m : Model}
    (h : type.Reached ModelStep.isWrite committed m) : m.type = type ∧ m.IsAligned := by
  refine h.invariant (fun _ m => m.type = type ∧ m.IsAligned) ?_ ?_ ?_
  · exact ⟨rfl, type.isAligned_empty⟩
  · intro v m hm
    rcases ModelType.create_eq_ok.mp hm with ⟨data, _, hbuild⟩ | ⟨_, rfl⟩
    · obtain ⟨staged, hstaged, hcommit⟩ := ModelType.build_eq_ok.mp hbuild
      exact ⟨ModelType.type_of_commit hcommit,
        ModelType.isAligned_of_commit (length_of_buildFields hstaged) hcommit⟩
    · exact ⟨rfl, type.isAligned_empty⟩
  · intro committed m step saved answer after saved' ⟨htype, haligned⟩ hw hrun
    have hcommits := ModelStep.commitsTo_of_run hw hrun
    exact ⟨hcommits.type_eq.trans htype, hcommits.isAligned haligned⟩

/-- A program of allowed steps in which failures are passed over stays within reach at every entry. -/
theorem ModelType.Reached.run {type : ModelType} {allowed : ModelStep → Bool} {steps : List ModelStep}
    (hsteps : ∀ step ∈ steps, allowed step) : ∀ {m last : Model} {saved saved' : Saved}
    {entries : List Entry}, type.Reached allowed true m →
    runModel (steps.map .attempt) m saved = (.ok (entries, last), saved') →
    type.Reached allowed true last ∧
      ∀ entry ∈ entries, ∃ m', entry.state = .model m' ∧ type.Reached allowed true m' := by
  induction steps with
  | nil =>
    intro m last saved saved' entries hm h
    rw [List.map_nil, runModel] at h
    obtain ⟨rfl, rfl⟩ := Prod.mk.inj (Except.ok.inj (Prod.mk.inj h).1)
    exact ⟨hm, fun _ hentry => absurd hentry List.not_mem_nil⟩
  | cons step rest ih =>
    intro m last saved saved' entries hm h
    rw [List.map_cons] at h
    obtain ⟨answer, after, between, others, hstep, hrest, rfl⟩ := exists_of_runModel_cons h
    have hafter : type.Reached allowed true after := hm.step (hsteps step List.mem_cons_self) hstep
    obtain ⟨hreached, hothers⟩ :=
      ih (fun step' hstep' => hsteps step' (List.mem_cons_of_mem _ hstep')) hafter hrest
    refine ⟨hreached, fun entry hentry => ?_⟩
    rcases List.mem_cons.mp hentry with rfl | hentry
    · exact ⟨after, rfl, hafter⟩
    · exact hothers entry hentry

/-- A program of allowed steps in which failures are passed over stays within reach at every entry. -/
theorem SequenceType.Reached.run {type : SequenceType} {allowed : SequenceStep → Bool}
    {steps : List SequenceStep} (hsteps : ∀ step ∈ steps, allowed step) : ∀ {s last : Sequence}
    {saved saved' : Saved} {entries : List Entry}, type.Reached allowed true s →
    runSequence (steps.map .attempt) s saved = (.ok (entries, last), saved') →
    type.Reached allowed true last ∧
      ∀ entry ∈ entries, ∃ s', entry.state = .sequence s' ∧ type.Reached allowed true s' := by
  induction steps with
  | nil =>
    intro s last saved saved' entries hs h
    rw [List.map_nil, runSequence] at h
    obtain ⟨rfl, rfl⟩ := Prod.mk.inj (Except.ok.inj (Prod.mk.inj h).1)
    exact ⟨hs, fun _ hentry => absurd hentry List.not_mem_nil⟩
  | cons step rest ih =>
    intro s last saved saved' entries hs h
    rw [List.map_cons] at h
    obtain ⟨answer, after, between, others, hstep, hrest, rfl⟩ := exists_of_runSequence_cons h
    have hafter : type.Reached allowed true after := hs.step (hsteps step List.mem_cons_self) hstep
    obtain ⟨hreached, hothers⟩ :=
      ih (fun step' hstep' => hsteps step' (List.mem_cons_of_mem _ hstep')) hafter hrest
    refine ⟨hreached, fun entry hentry => ?_⟩
    rcases List.mem_cons.mp hentry with rfl | hentry
    · exact ⟨after, rfl, hafter⟩
    · exact hothers entry hentry

end Reach

section Samples

/-- A schema that says of a nested member, from outside of its object, that it is an integer. -/
def boundFromOutside : Schema := ⟨.obj [
  ("type", .str "object"),
  ("properties", .obj [("n", .obj [("type", .str "object"), ("properties", .obj [("x", .obj [])])])]),
  ("allOf", .arr [.obj [
    ("properties", .obj [("n", .obj [("properties", .obj [("x", .obj [("type", .str "integer")])])])])]])]⟩

/-- A schema of arrays of integers. -/
def integerList : Schema :=
  ⟨.obj [("type", .str "array"), ("items", .obj [("type", .str "integer")])]⟩

/-- Two changes of the nested member, the first of which is refused from outside. -/
def nestedChanges : List ModelStep :=
  [.withModel "n" [.set "x" (.given (.ok (.plain (.str "y"))))],
    .withModel "n" [.set "x" (.given (.ok (.plain (.str "7"))))]]

/-- Two elements, the first of which is refused. -/
def newElements : List SequenceStep :=
  [.append (.given (.ok (.plain (.str "y")))), .append (.given (.ok (.plain (.str "7"))))]

theorem exists_reached_nestedChanges (allowed : ModelStep → Bool) (h : ∀ step ∈ nestedChanges, allowed step) :
    ∃ type m, boundFromOutside.compileModel 0 Engine.draft7 .coercing = .ok type ∧
      type.Reached allowed true m ∧ m.toJson = .obj [("n", .obj [("x", .str "7")])] := by
  have hrun : yields (boundFromOutside.compileModel 0 Engine.draft7 .coercing) fun type =>
      yields (type.create (.obj [("n", .obj [("x", .str "5")])])) fun m =>
        yields (runModel (nestedChanges.map .attempt) m []).1 fun result =>
          result.2.toJson = Json.obj [("n", .obj [("x", .str "7")])] := by decide +kernel
  obtain ⟨type, htype, hrun⟩ := exists_of_yields hrun
  obtain ⟨m, hm, hrun⟩ := exists_of_yields hrun
  obtain ⟨⟨entries, last⟩, hrun, hlast⟩ := exists_of_yields hrun
  have hcreated : type.Reached allowed true m := .create hm
  exact ⟨type, last, htype, (hcreated.run h (Prod.ext hrun rfl)).1, of_decide_eq_true hlast⟩

theorem exists_reached_newElements (allowed : SequenceStep → Bool) (h : ∀ step ∈ newElements, allowed step) :
    ∃ type s, integerList.compileSequence 0 Engine.draft7 .coercing = .ok type ∧
      type.Reached allowed true s ∧ s.toJson = .arr [.num (.int 5), .num (.int 7)] := by
  have hrun : yields (integerList.compileSequence 0 Engine.draft7 .coercing) fun type =>
      yields (type.create [.str "5"]) fun s =>
        yields (runSequence (newElements.map .attempt) s []).1 fun result =>
          result.2.toJson = Json.arr [.num (.int 5), .num (.int 7)] := by decide +kernel
  obtain ⟨type, htype, hrun⟩ := exists_of_yields hrun
  obtain ⟨s, hs, hrun⟩ := exists_of_yields hrun
  obtain ⟨⟨entries, last⟩, hrun, hlast⟩ := exists_of_yields hrun
  have hcreated : type.Reached allowed true s := .create hs
  exact ⟨type, last, htype, (hcreated.run h (Prod.ext hrun rfl)).1, of_decide_eq_true hlast⟩

end Samples

section Valid

variable {judge : Json → Json → List Violation} {options : Options}

/-- Writes never change the type, and from the first commit on what they reach is committed. -/
theorem ModelType.Reached.type_eq_and_isCommitted [Memory] {type : ModelType} (hc : type.IsChecked judge options)
    {committed : Bool} {m : Model} (h : type.Reached ModelStep.isWrite committed m) :
    m.type = type ∧ (committed → m.IsCommitted) := by
  have hcommit (staged : List (Option FieldValue)) (after : Model) (hafter : type.commit staged = .ok after) :
      after.type = type ∧ after.IsCommitted :=
    ⟨ModelType.type_of_commit hafter, ModelType.isCommitted_of_commit hc.isReadable.self hafter⟩
  refine h.invariant (fun committed m => m.type = type ∧ (committed → m.IsCommitted)) ?_ ?_ ?_
  · exact ⟨rfl, fun h => absurd h Bool.false_ne_true⟩
  · intro v m hm
    rcases ModelType.create_eq_ok.mp hm with ⟨data, _, hbuild⟩ | ⟨hv, rfl⟩
    · obtain ⟨staged, _, hstaged⟩ := ModelType.build_eq_ok.mp hbuild
      obtain ⟨htype, hcommitted⟩ := hcommit staged m hstaged
      exact ⟨htype, fun _ => hcommitted⟩
    · refine ⟨rfl, fun h => ?_⟩
      rw [hv] at h
      cases h
  · intro committed m step saved answer after saved' hm hw hrun
    obtain ⟨staged, _, hstaged⟩ := ModelStep.commitsTo_of_run hw hrun
    rw [hm.1] at hstaged
    obtain ⟨htype, hcommitted⟩ := hcommit staged after hstaged
    exact ⟨htype, fun _ => hcommitted⟩

/-- Writes never change the type, and from the first commit on what they reach is committed. -/
theorem SequenceType.Reached.type_eq_and_isCommitted [Memory] {type : SequenceType}
    (hc : type.IsChecked judge options) {committed : Bool} {s : Sequence}
    (h : type.Reached SequenceStep.isWrite committed s) : s.type = type ∧ (committed → s.IsCommitted) := by
  have hcommit (staged : List (Option Element)) (after : Sequence) (hafter : type.commit staged = .ok after) :
      after.type = type ∧ after.IsCommitted :=
    ⟨SequenceType.type_of_commit hafter, SequenceType.isCommitted_of_commit hc.isReadable.self hafter⟩
  refine h.invariant (fun committed s => s.type = type ∧ (committed → s.IsCommitted)) ?_ ?_ ?_
  · exact ⟨rfl, fun h => absurd h Bool.false_ne_true⟩
  · intro items s hs
    obtain ⟨elements, _, hstaged⟩ := SequenceType.build_eq_ok.mp hs
    obtain ⟨htype, hcommitted⟩ := hcommit _ s hstaged
    exact ⟨htype, fun _ => hcommitted⟩
  · intro committed s step saved answer after saved' hs hw hrun
    rcases SequenceStep.commitsTo_of_run hw hrun with ⟨staged, hstaged⟩ | ⟨hnothing, rfl⟩
    · rw [hs.1] at hstaged
      obtain ⟨htype, hcommitted⟩ := hcommit staged after hstaged
      exact ⟨htype, fun _ => hcommitted⟩
    · rw [hnothing, Bool.and_false, Bool.or_false]
      exact hs

theorem Model.IsCommitted.validate {m : Model} (h : m.IsCommitted) : m.validate none = .ok () := by
  obtain ⟨canonical, hcheck⟩ := h.check
  unfold Model.validate
  rw [Option.getD_none, hcheck]

/-- Whatever runs of writes reach is valid from the first commit on: a model passes its own validation, and
the type of a sequence accepts its value. Names are distinct in every document that is read from text. -/
theorem Schema.valid_of_reached [Memory] (schema : Schema) (hd : schema.document.hasDistinctNames) (number : Nat)
    (inspection : Json → Except SchemaError Unit) (judge : Json → Json → List Violation)
    (options : Options) :
    (∀ type m, schema.compileModel number (Engine.judging inspection judge) options = .ok type →
      type.Reached ModelStep.isWrite true m → m.type = type ∧ m.validate none = .ok ()) ∧
    ∀ type s, schema.compileSequence number (Engine.judging inspection judge) options = .ok type →
      type.Reached SequenceStep.isWrite true s →
        s.type = type ∧ ∃ canonical, s.type.check s.toJson = .ok canonical := by
  constructor
  · intro type m htype hm
    obtain ⟨heq, hcommitted⟩ := hm.type_eq_and_isCommitted (Schema.isChecked_compileModel hd htype)
    exact ⟨heq, (hcommitted rfl).validate⟩
  · intro type s htype hs
    obtain ⟨heq, hcommitted⟩ := hs.type_eq_and_isCommitted (Schema.isChecked_compileSequence hd htype)
    exact ⟨heq, (hcommitted rfl).check⟩

/-- A change refused from outside the nested object, and an element that is refused, leave what is valid. -/
theorem valid_of_reached_after_refusal :
    (∃ type m, boundFromOutside.compileModel 0 Engine.draft7 .coercing = .ok type ∧
      type.Reached ModelStep.isWrite true m ∧ m.toJson = .obj [("n", .obj [("x", .str "7")])] ∧
      m.validate none = .ok ()) ∧
    ∃ type s, integerList.compileSequence 0 Engine.draft7 .coercing = .ok type ∧
      type.Reached SequenceStep.isWrite true s ∧ s.toJson = .arr [.num (.int 5), .num (.int 7)] ∧
      ∃ canonical, s.type.check s.toJson = .ok canonical := by
  constructor
  · obtain ⟨type, m, htype, hm, hvalue⟩ := exists_reached_nestedChanges ModelStep.isWrite (by decide)
    have hjudged := Engine.draft7_eq_judging ▸ htype
    have hvalid := (Schema.valid_of_reached boundFromOutside (by decide) 0 _ _ .coercing).1 type m hjudged hm
    exact ⟨type, m, htype, hm, hvalue, hvalid.2⟩
  · obtain ⟨type, s, htype, hs, hvalue⟩ := exists_reached_newElements SequenceStep.isWrite (by decide)
    have hjudged := Engine.draft7_eq_judging ▸ htype
    have hvalid := (Schema.valid_of_reached integerList (by decide) 0 _ _ .coercing).2 type s hjudged hs
    exact ⟨type, s, htype, hs, hvalue, hvalid.2⟩

end Valid
end SchemaBound
