import SchemaBound.Proofs.Instance.ListChange
import SchemaBound.Proofs.Program.Reached

/-! Runs of writes to a sequence as runs of changes to a plain list. -/
namespace SchemaBound
open Json Success

/-- The answer to a change that says how long the list has become. -/
def Sequence.counted (s : Sequence) (change : ListChange Json) : ListChange Json × Answer :=
  (change, .count (change.apply .null (listing s.items)).length)

theorem Sequence.ChangesBy.counted_eq {s after : Sequence} {change : ListChange Json} (h : s.ChangesBy after change) :
    s.counted change = (change, .count after.size) := by
  have hlist := h.toJson_eq
  rw [after.toJson_eq, listing_eq_map] at hlist
  rw [counted, ← Json.arr.inj hlist, List.length_map, size]

section Runs

variable [Memory]

/-- The change of the plain list that a step stands for, and the answer to it. There is none if an input is not
there or if the program for an element fails. -/
def SequenceStep.effect? (s : Sequence) (saved : Saved) : SequenceStep → Option (ListChange Json × Answer)
  | .append input => (input.forSequence s saved).toOption.map fun e => s.counted (.addLast [s.type.valueOf e])
  | .push inputs => (inputs.mapM (Input.forSequence s saved)).toOption.map fun elements =>
    s.counted (.addLast (elements.map s.type.valueOf))
  | .prepend inputs => (inputs.mapM (Input.forSequence s saved)).toOption.map fun elements =>
    s.counted (.addFirst (elements.map s.type.valueOf))
  | .removeLast => some (.dropLast, .removed ((.dropLast : ListChange Json).removed s.items).head?.join)
  | .removeFirst => some (.dropFirst, .removed ((.dropFirst : ListChange Json).removed s.items).head?.join)
  | .setAt i input => (input.forSequence s saved).toOption.map fun e => (.assign i (s.type.valueOf e), .done)
  | .spliceAt start count inputs => (inputs.mapM (Input.forSequence s saved)).toOption.map fun elements =>
    let change := .splice start count (elements.map s.type.valueOf)
    (change, .removedAll (change.removed s.items))
  | .updateAt i body => match s.get? i with
    | some (.model nested) => (runModel body nested saved).1.toOption.map fun (entries, changed) =>
      (.assign i changed.toJson, .nested entries)
    | _ => none
  | _ => none

section Step

variable {s after : Sequence} {saved saved' : Saved} {answer : Answer}

/-- A write that succeeds does to the value of the sequence what its change does to a list, and answers as the
change says. -/
theorem SequenceStep.effect_of_run {step : SequenceStep} (hw : step.isWrite)
    (hv : s.type.Throughout Blueprint.IsVerbatim) (h : step.run s saved = (.ok (answer, after), saved')) :
    ∃ change, step.effect? s saved = some (change, answer) ∧ s.ChangesBy after change := by
  cases step with
  | append input =>
    rw [run, Outcome.of_eq_ok, bind_eq_ok] at h
    obtain ⟨⟨e, he, happend⟩, rfl, _⟩ := h
    have hchange := Sequence.changesBy_of_append hv happend
    exact ⟨_, by rw [effect?, he, ← hchange.counted_eq]; rfl, hchange⟩
  | push inputs =>
    rw [run, Outcome.of_eq_ok, bind_eq_ok] at h
    obtain ⟨⟨elements, helements, hpush⟩, rfl, _⟩ := h
    have hchange := Sequence.changesBy_of_push hv hpush
    exact ⟨_, by rw [effect?, helements, ← hchange.counted_eq]; rfl, hchange⟩
  | prepend inputs =>
    rw [run, Outcome.of_eq_ok, bind_eq_ok] at h
    obtain ⟨⟨elements, helements, hprepend⟩, rfl, _⟩ := h
    have hchange := Sequence.changesBy_of_prepend hv hprepend
    exact ⟨_, by rw [effect?, helements, ← hchange.counted_eq]; rfl, hchange⟩
  | removeLast =>
    rw [run] at h
    obtain ⟨⟨removed, after'⟩, hremove, hafter⟩ := map_eq_ok.mp (Prod.mk.inj h).1
    obtain ⟨rfl, rfl⟩ := Prod.mk.inj hafter
    obtain ⟨hchange, rfl⟩ := Sequence.changesBy_of_removeLast hv hremove
    exact ⟨_, rfl, hchange⟩
  | removeFirst =>
    rw [run] at h
    obtain ⟨⟨removed, after'⟩, hremove, hafter⟩ := map_eq_ok.mp (Prod.mk.inj h).1
    obtain ⟨rfl, rfl⟩ := Prod.mk.inj hafter
    obtain ⟨hchange, rfl⟩ := Sequence.changesBy_of_removeFirst hv hremove
    exact ⟨_, rfl, hchange⟩
  | setAt i input =>
    rw [run, Outcome.of_eq_ok, bind_eq_ok] at h
    obtain ⟨⟨e, he, hset⟩, rfl, _⟩ := h
    exact ⟨_, by rw [effect?, he]; rfl, Sequence.changesBy_of_setAt hv hset⟩
  | spliceAt start count inputs =>
    rw [run] at h
    obtain ⟨⟨removed, after'⟩, hsplice, hafter⟩ := map_eq_ok.mp (Prod.mk.inj h).1
    obtain ⟨rfl, rfl⟩ := Prod.mk.inj hafter
    obtain ⟨elements, helements, hsplice⟩ := bind_eq_ok.mp hsplice
    obtain ⟨hchange, rfl⟩ := Sequence.changesBy_of_spliceAt hv hsplice
    exact ⟨_, by rw [effect?, helements]; rfl, hchange⟩
  | updateAt i body =>
    obtain ⟨nested, entries, changed, hnested, hbody, rfl, hupdate⟩ := exists_of_run_updateAt h
    obtain ⟨nested', changed', _, hchanged, hchange⟩ := Sequence.changesBy_of_updateAt hv hupdate
    obtain ⟨_, rfl⟩ := Prod.mk.inj (Except.ok.inj hchanged)
    exact ⟨_, by rw [effect?, hnested]; dsimp only; rw [hbody]; rfl, hchange⟩
  | _ => cases hw

end Step

/-- A log against a run of a plain list, entry by entry. Either the step was refused, and the sequence is as before
it; or the step succeeded, the value is what its change makes of the list before, and the answer is that of the
change. -/
def Sequence.FollowsList : Sequence → Saved → List SequenceStep → List Entry → Prop
  | _, _, [], [] => True
  | s, saved, step :: steps, entry :: entries =>
    ∃ after, entry.state = .sequence after ∧
      ((∃ e, (step.run s saved).1 = .error e ∧ entry.answer = .caught e ∧ after = s) ∨
        ((step.run s saved).1 = .ok (entry.answer, after) ∧
          ∃ change, step.effect? s saved = some (change, entry.answer) ∧ s.ChangesBy after change)) ∧
      after.FollowsList (step.run s saved).2 steps entries
  | _, _, _, _ => False

/-- A program in which failures are passed over runs to its end, and its log follows the plain list. -/
theorem exists_followsList_of_run {steps : List SequenceStep} (hw : ∀ step ∈ steps, step.isWrite) (saved : Saved)
    {s : Sequence} (hv : s.type.Throughout Blueprint.IsVerbatim) :
    ∃ entries last saved', runSequence (steps.map .attempt) s saved = (.ok (entries, last), saved') ∧
      s.FollowsList saved steps entries := by
  induction steps generalizing s saved with
  | nil => exact ⟨[], s, saved, by rw [List.map_nil, runSequence], trivial⟩
  | cons step rest ih =>
    obtain ⟨hfirst, hrest⟩ := List.forall_mem_cons.mp hw
    -- what is left of the first step, whether it succeeds or not, is of the type, so that the others can follow
    have hnext : ∃ answer after, (SequenceStep.attempt step).run s saved = (.ok (answer, after), (step.run s saved).2) ∧
        after.type = s.type ∧
        ((∃ e, (step.run s saved).1 = .error e ∧ answer = .caught e ∧ after = s) ∨
          ((step.run s saved).1 = .ok (answer, after) ∧
            ∃ change, step.effect? s saved = some (change, answer) ∧ s.ChangesBy after change)) := by
      rw [step.run_attempt]
      rcases hrun : step.run s saved with ⟨_ | ⟨answer, after⟩, between⟩
      · rename_i e
        exact ⟨.caught e, s, rfl, rfl, Or.inl ⟨e, rfl, rfl, rfl⟩⟩
      · obtain ⟨change, heffect, hchange⟩ := SequenceStep.effect_of_run hfirst hv hrun
        exact ⟨answer, after, rfl, hchange.type_eq, Or.inr ⟨rfl, change, heffect, hchange⟩⟩
    obtain ⟨answer, after, hattempt, htype, hentry⟩ := hnext
    obtain ⟨entries, last, saved', hothers, hfollows⟩ := ih hrest (step.run s saved).2 (htype.symm ▸ hv)
    refine ⟨⟨answer, .sequence after⟩ :: entries, last, saved', ?_, after, rfl, hentry, hfollows⟩
    rw [List.map_cons, runSequence, hattempt]
    dsimp only
    rw [hothers]
    rfl

/-- If the engine leaves accepted values as they are, a sequence is a plain list: whatever writes run on it, each
that succeeds does to its value what its change does to a list, holes counting as nulls, and answers accordingly, and
each that is refused leaves it alone. -/
theorem Schema.log_followsList (schema : Schema) (hd : schema.document.hasDistinctNames) (number : Nat)
    (engine : Engine) (options : Options) (hverbatim : engine.IsVerbatim options) {root : Blueprint}
    (hroot : schema.CompilesTo number engine options root) {s : Sequence} (htype : root.Reaches (.sequence s.type))
    {steps : List SequenceStep} (hw : ∀ step ∈ steps, step.isWrite) :
    s.FollowsList [] steps (s.log steps) := by
  have hfrom : s.type.Throughout (Blueprint.ComesFrom engine options) := (hroot.comesFrom hd).reached htype
  have hv := hfrom.mono fun _ h => h.isVerbatim hverbatim
  obtain ⟨entries, last, saved', hrun, hfollows⟩ := exists_followsList_of_run hw [] hv
  rw [Sequence.log, hrun]
  exact hfollows

end Runs

section Samples

/-- A schema of a list of objects, in which anything else is accepted too. -/
def listOfRecords : Schema := ⟨.obj [
  ("items", .obj [("properties", .obj [("x", .obj [("type", .str "integer")])])])]⟩

private def givenRecord (members : List (String × Json)) : Input := .given (.ok (.plain (.obj members)))

/-- An element with a member that is not declared, one that is refused, an assignment past the end, and a removal of
more elements than any list has. -/
private def recordChanges : List SequenceStep := [
  .append (givenRecord [("x", .num (.int 1)), ("w", .num (.int 0))]),
  .append (givenRecord [("x", .null)]),
  .setAt 2 (givenRecord [("x", .num (.int 2))]),
  .prepend [givenRecord [("x", .num (.int 3))], givenRecord []],
  .spliceAt 1 (UInt64.size - 1) [.element 4],
  .removeFirst]

private def recordX (n : Int) : Json := .obj [("x", .num (.int n))]

private def recordStates : List Json := [
  .arr [recordX 1],
  .arr [recordX 1],
  .arr [recordX 1, .null, recordX 2],
  .arr [recordX 3, .obj [], recordX 1, .null, recordX 2],
  .arr [recordX 3, recordX 2],
  .arr [recordX 2]]

/-- A list that grows past a hole and from which all but the last element are taken out. -/
theorem log_followsList_records :
    ∃ type, listOfRecords.compileSequence 0 Engine.draft7 .strict = .ok type ∧
      type.empty.FollowsList [] recordChanges (type.empty.log recordChanges) ∧
      (type.empty.log recordChanges).map (·.state.toJson) = recordStates := by
  have hrun : yields (listOfRecords.compileSequence 0 Engine.draft7 .strict) fun type =>
      (type.empty.log recordChanges).map (·.state.toJson) = recordStates := by decide +kernel
  obtain ⟨type, htype, hstates⟩ := exists_of_yields hrun
  have hcompiles : listOfRecords.CompilesTo 0 Engine.draft7 .strict (.sequence type) := htype
  have hreaches : (Blueprint.sequence type).Reaches (.sequence type.empty.type) := .refl
  have hfollows : type.empty.FollowsList [] recordChanges (type.empty.log recordChanges) :=
    Schema.log_followsList listOfRecords (by decide) 0 Engine.draft7 .strict (Engine.isVerbatim_draft7 rfl)
      hcompiles hreaches (by decide)
  exact ⟨type, htype, hfollows, of_decide_eq_true hstates⟩

end Samples

end SchemaBound
