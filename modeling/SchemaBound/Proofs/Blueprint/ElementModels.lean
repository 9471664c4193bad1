import SchemaBound.Proofs.Blueprint.Alternatives
import SchemaBound.Proofs.Blueprint.Origins
import SchemaBound.Proofs.Blueprint.Outcomes

/-! What a compilation makes of an array: it is refused, or it gets the type for its elements, by the set of what its
elements may be. -/
namespace SchemaBound
open Place Elements

/-- The array whose elements have no one type, if that is what the error says. -/
def SchemaError.refused? : SchemaError → Option String
  | .mixedArrayModels path | .multipleArrayModels path => some path
  | _ => none

section Refusals

variable {document : Json} {place : Place} {e : SchemaError}

theorem Place.refused_of_resolve (h : place.resolve document = .error e) : e.refused? = none := by
  unfold resolve at h
  generalize maxHops = hops at h
  induction hops generalizing place with
  | zero =>
    obtain rfl := Except.error.inj h
    rfl
  | succ hops ih =>
    unfold resolveIn at h
    split at h
    · cases h
    · split at h
      · exact ih h
      · obtain rfl := Except.error.inj h
        rfl
    · obtain rfl := Except.error.inj h
      rfl

namespace Shape

private theorem refused_of_ofTypeName {pointer name : String} (h : ofTypeName pointer name = .error e) :
    e.refused? = none := by
  unfold ofTypeName at h
  split at h
  · cases h
  · cases h
  · split at h
    · cases h
    · obtain rfl := Except.error.inj h
      rfl

private theorem refused_of_ofTypeNames {pointer : String} {names : List Json}
    (h : ofTypeNames pointer names = .error e) : e.refused? = none := by
  rcases Failure.bind_eq_error.mp h with h | ⟨shapes, _, h⟩
  · obtain ⟨name, _, h⟩ := Failure.exists_of_mapM_eq_error h
    split at h
    · exact refused_of_ofTypeName h
    · obtain rfl := Except.error.inj h
      rfl
  · split at h <;> exact absurd h Failure.pure_ne_error

theorem refused_of_ofPlaceIn {depth : Nat} (h : ofPlaceIn document depth place = .error e) : e.refused? = none := by
  induction depth generalizing place with
  | zero =>
    obtain rfl := Except.error.inj h
    rfl
  | succ depth ih =>
    unfold ofPlaceIn at h
    split at h
    · cases h
    · split at h
      · exact refused_of_ofTypeName h
      · exact refused_of_ofTypeNames h
      · obtain rfl := Except.error.inj h
        rfl
      · split at h
        · cases h
        · rcases Failure.bind_eq_error.mp h with h | ⟨_, _, h⟩
          · obtain ⟨entry, _, h⟩ := Failure.exists_of_forIn_eq_error h
            rcases Failure.bind_eq_error.mp h with hresolve | ⟨inner, _, h⟩
            · exact refused_of_resolve hresolve
            · rcases Failure.bind_eq_error.mp h with h | ⟨_, _, h⟩
              · exact ih h
              · exact absurd h Failure.pure_ne_error
          · exact absurd h Failure.pure_ne_error
        · obtain rfl := Except.error.inj h
          rfl
    · obtain rfl := Except.error.inj h
      rfl

end Shape

namespace Elements

private theorem refused_of_expandIn {depth : Nat} (h : expandIn document depth place = .error e) :
    e.refused? = none := by
  induction depth generalizing place with
  | zero =>
    obtain rfl := Except.error.inj h
    rfl
  | succ depth ih =>
    unfold expandIn at h
    rcases Failure.bind_eq_error.mp h with hresolve | ⟨found, _, h⟩
    · exact refused_of_resolve hresolve
    · split at h
      · exact absurd h Failure.pure_ne_error
      · rcases Failure.bind_eq_error.mp h with h | ⟨_, _, h⟩
        · obtain ⟨entry, _, h⟩ := Failure.exists_of_mapM_eq_error h
          exact ih h
        · exact absurd h Failure.pure_ne_error

/-- The array that is refused is the one that is asked about. -/
theorem refused_of_object {k : String} (h : object? document place = .error e) (hk : e.refused? = some k) :
    k = place.pointer := by
  unfold object? at h
  rcases Failure.bind_eq_error.mp h with h | ⟨lists, _, h⟩
  · obtain ⟨rule, _, h⟩ := Failure.exists_of_mapM_eq_error h
    rw [refused_of_expandIn h] at hk
    cases hk
  · rcases Failure.bind_eq_error.mp h with h | ⟨known, _, h⟩
    · obtain ⟨found, _, _, h⟩ := Failure.exists_of_foldlM_eq_error h
      rcases Failure.bind_eq_error.mp h with h | ⟨shape, _, h⟩
      · rw [Shape.refused_of_ofPlaceIn h] at hk
        cases hk
      · split at h <;> exact absurd h Failure.pure_ne_error
    · split at h
      · exact absurd h Failure.pure_ne_error
      · obtain rfl := Except.error.inj h
        exact (Option.some.inj hk).symm
      · exact absurd h Failure.pure_ne_error
      · obtain rfl := Except.error.inj h
        exact (Option.some.inj hk).symm

end Elements

end Refusals

namespace Compilation
open Step

/-- An array that an error refuses has elements that the error is about, unless the engine itself said so. -/
def Accounts (job : Compilation) (e : SchemaError) : Prop :=
  ∀ k, e.refused? = some k → (∃ node, job.engine node = .error e) ∨
    ∃ array : Place, array.Reached job.document ∧ array.pointer = k ∧ Elements.object? job.document array = .error e

/-- The last steps for an array node, once the type for its elements is there. -/
def finishSequence (job : Compilation) (place : Place) (element : Option ModelType) : Step SequenceType := do
  let validator ← job.hand place
  let type : SequenceType := ⟨⟨job.number, place.pointer⟩, element, validator, job.options⟩
  modify fun done => { done with sequences := (place.pointer, type) :: done.sequences }
  return type

section Accounting

variable {job : Compilation} {place : Place}

theorem accounts_of_not_refused {e : SchemaError} (h : e.refused? = none) : job.Accounts e := by
  intro k hk
  rw [h] at hk
  cases hk

/-- Whatever the progress, a failure of the step is accounted for. -/
def IsAccounted {α : Type} (job : Compilation) (step : Step α) : Prop :=
  Meets (fun _ => True) step (fun _ _ => True) job.Accounts

variable {α β : Type}

theorem isAccounted_pure (a : α) : job.IsAccounted (pure a : Step α) := meets_pure fun _ _ => trivial

theorem IsAccounted.bind {step : Step α} {next : α → Step β} (h : job.IsAccounted step)
    (hnext : ∀ a, job.IsAccounted (next a)) : job.IsAccounted (step >>= next) := Meets.bind h hnext

theorem IsAccounted.map {step : Step α} {f : α → β} (h : job.IsAccounted step) : job.IsAccounted (f <$> step) :=
  Meets.map_result h

theorem isAccounted_get : job.IsAccounted (get : Step Progress) :=
  meets_get.mono (fun _ h => h) fun _ _ _ => trivial

theorem isAccounted_modify (f : Progress → Progress) : job.IsAccounted (modify f : Step Unit) :=
  meets_modify fun _ _ => trivial

theorem isAccounted_lift {result : Except SchemaError α} {next : α → Step β}
    (hok : ∀ a, result = .ok a → job.IsAccounted (next a)) (herror : ∀ e, result = .error e → job.Accounts e) :
    job.IsAccounted ((liftM result : Step α) >>= next) := meets_lift hok herror

theorem isAccounted_mapM {f : α → Step β} {list : List α} (h : ∀ a ∈ list, job.IsAccounted (f a)) :
    job.IsAccounted (list.mapM f) :=
  meets_mapM (fun (_ : Unit → Prop) _ => True) (fun _ _ => False) list (fun a ha _ => h a ha) fun _ => False

theorem isAccounted_hand : job.IsAccounted (job.hand place) := by
  unfold hand
  refine (isAccounted_modify _).bind fun _ => ?_
  split
  · exact isAccounted_pure _
  · exact meets_throw (accounts_of_not_refused rfl)
  · rename_i e _ he
    exact meets_throw fun k _ => .inl ⟨_, he⟩

theorem isAccounted_finishSequence (element : Option ModelType) : job.IsAccounted (job.finishSequence place element) :=
  isAccounted_hand.bind fun _ => (isAccounted_modify _).bind fun _ => isAccounted_pure _

theorem isAccounted_sequenceType (hp : place.Reached job.document) (hs : place.HasShape job.document .array)
    {compileElement : Place → Step ModelType}
    (hc : ∀ object : Place, object.Reached job.document → object.HasShape job.document .object →
      job.IsAccounted (compileElement object)) : job.IsAccounted (job.sequenceType compileElement place) := by
  unfold sequenceType
  refine isAccounted_get.bind fun done => ?_
  split
  · exact isAccounted_pure _
  · refine isAccounted_lift (fun object? hobject => ?_) fun e h k hk => ?_
    · cases object? with
      | none => exact (isAccounted_pure none).bind isAccounted_finishSequence
      | some object =>
        obtain ⟨hreached, hshape⟩ := reached_of_object hp hs hobject
        exact (hc object hreached hshape).map.bind isAccounted_finishSequence
    · exact .inr ⟨place, hp, (refused_of_object h hk).symm, h⟩

theorem isAccounted_fieldBy {rule : String × Json} (hr : (rulePlace place rule).Reached job.document)
    {compile : Place → Step ModelType}
    (hc : ∀ object : Place, object.Reached job.document → object.HasShape job.document .object →
      job.IsAccounted (compile object)) : job.IsAccounted (job.fieldBy compile place rule) := by
  unfold fieldBy
  refine isAccounted_lift (fun target hresolve => ?_) fun e h => accounts_of_not_refused (refused_of_resolve h)
  have ht := hr.resolve hresolve
  refine isAccounted_lift (fun shape hshape => ?_) fun e h => accounts_of_not_refused (Shape.refused_of_ofPlaceIn h)
  have hs : target.HasShape job.document shape := ⟨noReference_of_resolve hresolve, hshape⟩
  cases shape with
  | object => exact (hc target ht hs).map.bind fun _ => isAccounted_pure _
  | array => exact (isAccounted_sequenceType ht hs hc).map.bind fun _ => isAccounted_pure _
  | union | scalar => exact isAccounted_pure _

/-- Wherever a compilation fails for the elements of an array, it is for what they may be. -/
theorem isAccounted_modelTypeIn (depth : Nat) (pending : List String) (hp : place.Reached job.document)
    (hs : place.HasShape job.document .object) : job.IsAccounted (job.modelTypeIn depth pending place) := by
  induction depth generalizing pending place with
  | zero => exact meets_throw (accounts_of_not_refused rfl)
  | succ depth ih =>
    unfold modelTypeIn
    refine isAccounted_get.bind fun done => ?_
    split
    · exact isAccounted_pure _
    · split
      · have hthrow : Meets (fun _ => True) (throw (.cyclic place.pointer) : Step PUnit) (fun _ _ => False)
            job.Accounts := meets_throw (accounts_of_not_refused rfl)
        exact hthrow.bind fun _ _ h => h.elim
      · refine isAccounted_lift (fun rules hrules => ?_) fun e h => accounts_of_not_refused ?_
        · have hrule (rule : String × Json) (hmem : rule ∈ rules) :
              job.IsAccounted (job.fieldBy (job.modelTypeIn depth (place.pointer :: pending)) place rule) := by
            have hreached : (rulePlace place rule).Reached job.document :=
              .property hp hs ⟨rules, rule.1, rule.2, hrules, hmem, rfl⟩
            exact isAccounted_fieldBy hreached fun object ho hshape => ih _ ho hshape
          have hfields : job.IsAccounted
              (rules.mapM (job.fieldBy (job.modelTypeIn depth (place.pointer :: pending)) place)) :=
            isAccounted_mapM hrule
          exact hfields.bind fun fields =>
            isAccounted_hand.bind fun _ => (isAccounted_modify _).bind fun _ => isAccounted_pure _
        · unfold properties at h
          split at h
          · cases h
          · cases h
          · obtain rfl := Except.error.inj h
            rfl

end Accounting

section Outcome

variable {job : Compilation} {compile : Place → Step ModelType} {place : Place} {done : Progress}

/-- The answer of the engine for the node of a place, as the compilation passes it on. -/
def answer (job : Compilation) (place : Place) : Except SchemaError Validator :=
  match job.engine (standalone job.document place) with
  | .error (.engine _ reason) => .error (.engine place.pointer reason)
  | answer => answer

theorem fst_runFrom_hand (done : Progress) : ((job.hand place).runFrom done).1 = job.answer place := by
  unfold hand answer
  dsimp only
  cases job.engine (standalone job.document place) with
  | ok validator => rfl
  | error e => cases e <;> rfl

/-- What a compilation makes of an array. -/
def outcome (job : Compilation) (compile : Place → Step ModelType) (done : Progress) (array : Place) :
    Except SchemaError SequenceType :=
  ((job.sequenceType compile array).runFrom done).1

/-- The type for the elements of an array, given the object that they may be. -/
def elementOutcome (compile : Place → Step ModelType) (done : Progress) :
    Option Place → Except SchemaError (Option ModelType)
  | none => .ok none
  | some object => some <$> ((compile object).runFrom done).1

theorem fst_runFrom_finishSequence (element : Option ModelType) (done : Progress) :
    ((job.finishSequence place element).runFrom done).1 =
      (job.answer place).map fun validator => ⟨⟨job.number, place.pointer⟩, element, validator, job.options⟩ := by
  unfold finishSequence
  rw [runFrom_bind, ← fst_runFrom_hand done]
  rcases (job.hand place).runFrom done with ⟨x, after⟩
  cases x <;> rfl

/-- What is made of an array that is not finished yet. -/
theorem outcome_of_lookup_eq_none (hfresh : done.sequences.lookup place.pointer = none) :
    job.outcome compile done place = (do
      let object? ← Elements.object? job.document place
      let element ← elementOutcome compile done object?
      (job.answer place).map fun validator => ⟨⟨job.number, place.pointer⟩, element, validator, job.options⟩) := by
  have hget : (get : Step Progress).runFrom done = (.ok done, done) := rfl
  unfold outcome sequenceType
  rw [runFrom_bind, hget]
  simp only [hfresh]
  rw [runFrom_bind]
  cases Elements.object? job.document place with
  | error e => rfl
  | ok object? =>
    cases object? with
    | none => exact fst_runFrom_finishSequence none done
    | some object =>
      have hmap : (some <$> compile object : Step (Option ModelType)).runFrom done =
          (some <$> ((compile object).runFrom done).1, ((compile object).runFrom done).2) := by
        rw [map_eq_pure_bind, runFrom_bind]
        rcases (compile object).runFrom done with ⟨x, after⟩
        cases x <;> rfl
      change (((some <$> compile object) >>= job.finishSequence place).runFrom done).1 =
        (elementOutcome compile done (some object) >>= _)
      rw [runFrom_bind, hmap, elementOutcome]
      rcases (compile object).runFrom done with ⟨x, after⟩
      cases x with
      | error e => rfl
      | ok model => exact fst_runFrom_finishSequence (some model) after

theorem outcome_of_object (hfresh : done.sequences.lookup place.pointer = none) {object? : Option Place}
    (hobject : Elements.object? job.document place = .ok object?) :
    job.outcome compile done place = elementOutcome compile done object? >>= fun element =>
      (job.answer place).map fun validator => ⟨⟨job.number, place.pointer⟩, element, validator, job.options⟩ := by
  rw [outcome_of_lookup_eq_none hfresh, hobject]
  rfl

theorem outcome_of_lookup_eq_some {type : SequenceType} (h : done.sequences.lookup place.pointer = some type) :
    job.outcome compile done place = .ok type := by
  have hget : (get : Step Progress).runFrom done = (.ok done, done) := rfl
  unfold outcome sequenceType
  rw [runFrom_bind, hget]
  simp only [h]
  rfl

theorem answer_of_engine {validator : Validator} (h : job.engine (standalone job.document place) = .ok validator) :
    job.answer place = .ok validator := by
  rw [answer, h]

variable {depth : Nat} {pending : List String} {array other : Place} {leaves others : List Place}

/-- What is made of an array is for it. -/
theorem isFor_of_outcome (hd : job.document.hasDistinctNames) (hp : array.Reached job.document)
    (hs : array.HasShape job.document .array) (hdone : done.HasOrigins job) {type : SequenceType}
    (h : job.outcome (job.modelTypeIn depth pending) done array = .ok type) : type.IsFor job array := by
  have hensures := ensures_sequenceType hd hp hs fun object ho hshape => ensures_modelTypeIn hd depth pending ho hshape
  exact (hensures done type _ hdone (Prod.ext h rfl)).2

/-- A question that finds no one object refuses the array. -/
theorem outcome_of_object_error (hd : job.document.hasDistinctNames) (hp : array.Reached job.document)
    (hs : array.HasShape job.document .array) (hdone : done.HasOrigins job) {e : SchemaError}
    (h : Elements.object? job.document array = .error e) :
    job.outcome (job.modelTypeIn depth pending) done array = .error e := by
  cases hlookup : done.sequences.lookup array.pointer with
  | none =>
    rw [outcome_of_lookup_eq_none hlookup, h]
    rfl
  | some type =>
    have hfinished : job.outcome (job.modelTypeIn depth pending) done array = .ok type :=
      outcome_of_lookup_eq_some hlookup
    obtain ⟨object?, hobject, _⟩ := (isFor_of_outcome hd hp hs hdone hfinished).exists_object
    cases h.symm.trans hobject

end Outcome

/-- Two arrays come to the same: they are refused alike, the type for their elements cannot be made, or both have
it. -/
inductive SameElement (array other : Place) :
    Except SchemaError SequenceType → Except SchemaError SequenceType → Prop
  | mixed : SameElement array other (.error (.mixedArrayModels array.pointer))
      (.error (.mixedArrayModels other.pointer))
  | multiple : SameElement array other (.error (.multipleArrayModels array.pointer))
      (.error (.multipleArrayModels other.pointer))
  | failed (e : SchemaError) : SameElement array other (.error e) (.error e)
  | made {type type' : SequenceType} : type'.element = type.element → SameElement array other (.ok type) (.ok type')

/-- The type for the elements of an array is chosen by the set of the leaves that its rules for them expand to. -/
structure ChoosesBySet (job : Compilation) (compile : Place → Step ModelType) (done : Progress) (array : Place)
    (leaves : List Place) : Prop where
  mixed : (objectPointers job.document leaves).Nonempty → 0 < othersCount job.document leaves →
    job.outcome compile done array = .error (.mixedArrayModels array.pointer)
  /-- Unless the engine says so of its own accord. -/
  only_mixed : (∀ node, job.engine node ≠ .error (.mixedArrayModels array.pointer)) →
    job.outcome compile done array = .error (.mixedArrayModels array.pointer) →
    (objectPointers job.document leaves).Nonempty ∧ 0 < othersCount job.document leaves
  multiple : (objectPointers job.document leaves).Nontrivial → ¬ 0 < othersCount job.document leaves →
    job.outcome compile done array = .error (.multipleArrayModels array.pointer)
  only_multiple : (∀ node, job.engine node ≠ .error (.multipleArrayModels array.pointer)) →
    job.outcome compile done array = .error (.multipleArrayModels array.pointer) →
    (objectPointers job.document leaves).Nontrivial ∧ ¬ 0 < othersCount job.document leaves
  succeeds : ¬ ((objectPointers job.document leaves).Nonempty ∧ 0 < othersCount job.document leaves) →
    ¬ (objectPointers job.document leaves).Nontrivial →
    (∀ leaf ∈ leaves, isObjectLeaf job.document leaf → ∃ model, ((compile leaf).runFrom done).1 = .ok model) →
    (∃ validator, job.engine (standalone job.document array) = .ok validator) →
    ∃ type, job.outcome compile done array = .ok type
  /-- The type for the elements is that of the one object, and there is none without an object. -/
  element : ∀ type, job.outcome compile done array = .ok type →
    (type.element = none ↔ objectPointers job.document leaves = ∅) ∧ ∀ model, type.element = some model →
      ∃ leaf ∈ leaves, objectPointers job.document leaves = {leaf.pointer} ∧ model.IsFor job leaf ∧
        (done.sequences.lookup array.pointer = none → ((compile leaf).runFrom done).1 = .ok model)
  /-- Another array with the same leaves, or with the same rules written in another way, comes to the same. -/
  independent : ∀ other : Place, other.Reached job.document → other.HasShape job.document .array →
    (∃ others, ExpandsTo job.document (stated other) others ∧ ∀ leaf, leaf ∈ others ↔ leaf ∈ leaves) ∨
      Rearranges job.document (stated array) (stated other) →
    done.sequences.lookup array.pointer = none → done.sequences.lookup other.pointer = none →
    (∃ validator, job.engine (standalone job.document array) = .ok validator) →
    (∃ validator, job.engine (standalone job.document other) = .ok validator) →
    SameElement array other (job.outcome compile done array) (job.outcome compile done other)

section Choosing

variable {job : Compilation} {depth : Nat} {pending : List String} {done : Progress} {array : Place}
  {leaves : List Place}

/-- An array refused at its own pointer is refused for what its elements may be. -/
theorem object_of_outcome_refused (hd : job.document.hasDistinctNames) (hp : array.Reached job.document)
    (hs : array.HasShape job.document .array) {e : SchemaError} (he : e.refused? = some array.pointer)
    (hengine : ∀ node, job.engine node ≠ .error e)
    (h : job.outcome (job.modelTypeIn depth pending) done array = .error e) :
    Elements.object? job.document array = .error e := by
  have haccounted := isAccounted_sequenceType hp hs fun object ho hshape =>
    isAccounted_modelTypeIn depth pending ho hshape
  have haccounts := haccounted.error trivial (Prod.ext h rfl : (job.sequenceType _ array).runFrom done = (.error e, _))
  rcases haccounts array.pointer he with ⟨node, hnode⟩ | ⟨same, hsame, hpointer, hobject⟩
  · exact absurd hnode (hengine node)
  · obtain rfl := hsame.eq_of_pointer hd hp hpointer
    exact hobject

/-- The object of the array and the type that is made of it. -/
theorem exists_leaf_of_element (hchosen : Chosen job.document array leaves (Elements.object? job.document array))
    {type : SequenceType} {model : ModelType} (htype : type.IsFor job array) (hmodel : type.element = some model) :
    ∃ leaf ∈ leaves, objectPointers job.document leaves = {leaf.pointer} ∧ model.IsFor job leaf ∧
      Elements.object? job.document array = .ok (some leaf) := by
  obtain ⟨object?, hobject, helement⟩ := htype.exists_object
  rw [hmodel] at helement
  rw [hobject] at hchosen
  cases hchosen with
  | one hin _ hsingle _ => exact ⟨_, hin, hsingle, helement, hobject⟩
  | none => exact helement.elim

theorem element_eq_none_iff (hchosen : Chosen job.document array leaves (Elements.object? job.document array))
    {type : SequenceType} (htype : type.IsFor job array) :
    type.element = none ↔ objectPointers job.document leaves = ∅ := by
  obtain ⟨object?, hobject, helement⟩ := htype.exists_object
  rw [hobject] at hchosen
  cases hchosen with
  | one _ _ hsingle _ =>
    cases htype' : type.element with
    | none =>
      rw [htype'] at helement
      exact helement.elim
    | some model => exact iff_of_false nofun (hsingle ▸ Set.singleton_ne_empty _)
  | none hempty =>
    cases htype' : type.element with
    | none => exact iff_of_true rfl hempty
    | some model =>
      rw [htype'] at helement
      exact helement.elim

/-- The type for the elements is the one that is made of their object. -/
theorem compiled_of_outcome {compile : Place → Step ModelType} (hfresh : done.sequences.lookup array.pointer = none)
    {object : Place} (hobject : Elements.object? job.document array = .ok (some object)) {type : SequenceType}
    {model : ModelType} (h : job.outcome compile done array = .ok type) (hmodel : type.element = some model) :
    ((compile object).runFrom done).1 = .ok model := by
  rw [outcome_of_object hfresh hobject] at h
  obtain ⟨element, helement, h⟩ := Success.bind_eq_ok.mp h
  obtain ⟨validator, _, rfl⟩ := Success.map_eq_ok.mp h
  obtain ⟨made, hmade, rfl⟩ := Success.map_eq_ok.mp helement
  rw [hmade, Option.some.inj hmodel]

/-- An array that is not refused has a type once that of its elements and its validator are made. -/
theorem exists_of_outcome {compile : Place → Step ModelType}
    (hchosen : Chosen job.document array leaves (Elements.object? job.document array))
    (hmixed : ¬ ((objectPointers job.document leaves).Nonempty ∧ 0 < othersCount job.document leaves))
    (hmultiple : ¬ (objectPointers job.document leaves).Nontrivial)
    (hcompile : ∀ leaf ∈ leaves, isObjectLeaf job.document leaf → ∃ model, ((compile leaf).runFrom done).1 = .ok model)
    {validator : Validator} (hengine : job.engine (standalone job.document array) = .ok validator) :
    ∃ type, job.outcome compile done array = .ok type := by
  cases hlookup : done.sequences.lookup array.pointer with
  | some type => exact ⟨type, outcome_of_lookup_eq_some hlookup⟩
  | none =>
    have hmake {object? : Option Place} {element : Option ModelType}
        (hobject : Elements.object? job.document array = .ok object?)
        (helement : elementOutcome compile done object? = .ok element) :
        ∃ type, job.outcome compile done array = .ok type := by
      rw [outcome_of_object hlookup hobject, helement, answer_of_engine hengine]
      exact ⟨_, rfl⟩
    cases hanswer : Elements.object? job.document array with
    | error e =>
      rw [hanswer] at hchosen
      cases hchosen with
      | mixed hobjects hothers => exact absurd ⟨hobjects, hothers⟩ hmixed
      | multiple hobjects _ => exact absurd hobjects hmultiple
    | ok object? =>
      rw [hanswer] at hchosen
      cases hchosen with
      | @one object hin hobject _ _ =>
        obtain ⟨model, hmodel⟩ := hcompile object hin hobject
        exact hmake hanswer (by rw [elementOutcome, hmodel]; rfl)
      | none => exact hmake hanswer rfl

/-- The same answer to the question for the object makes the same of two arrays. -/
theorem sameElement_of_sameChoice {compile : Place → Step ModelType} {other : Place}
    (hsame : SameChoice array other (Elements.object? job.document array) (Elements.object? job.document other))
    (hfresh : done.sequences.lookup array.pointer = none) (hfresh' : done.sequences.lookup other.pointer = none)
    {validator validator' : Validator} (hengine : job.engine (standalone job.document array) = .ok validator)
    (hengine' : job.engine (standalone job.document other) = .ok validator') :
    SameElement array other (job.outcome compile done array) (job.outcome compile done other) := by
  rw [outcome_of_lookup_eq_none hfresh, outcome_of_lookup_eq_none hfresh', answer_of_engine hengine,
    answer_of_engine hengine']
  generalize Elements.object? job.document array = answer at hsame
  generalize Elements.object? job.document other = answer' at hsame
  cases hsame with
  | mixed => exact .mixed
  | multiple => exact .multiple
  | object object? =>
    change SameElement array other (elementOutcome compile done object? >>= _)
      (elementOutcome compile done object? >>= _)
    cases elementOutcome compile done object? with
    | error e => exact .failed e
    | ok element => exact .made rfl

/-- The type for the elements of an array is chosen by what the elements may be, and by nothing else. -/
theorem choosesBySet (job : Compilation) (hd : job.document.hasDistinctNames) (depth : Nat) (pending : List String)
    (hdone : done.HasOrigins job) (hp : array.Reached job.document) (hs : array.HasShape job.document .array)
    (hleaves : ExpandsTo job.document (stated array) leaves)
    (hclassified : ∀ leaf ∈ leaves, ∃ shape, Shape.ofPlace job.document leaf = .ok shape) :
    ChoosesBySet job (job.modelTypeIn depth pending) done array leaves := by
  have hchosen := chosen_object? hd hp hs hleaves hclassified
  have hreached : ∀ leaf ∈ leaves, leaf.Reached job.document := fun leaf hleaf =>
    (hleaves.reached (fun rule hrule => .element hp hs hrule) leaf hleaf).1
  refine
    { mixed := fun hobjects hothers => outcome_of_object_error hd hp hs hdone (hchosen.eq_mixed hobjects hothers)
      only_mixed := fun hengine h => ?_
      multiple := fun hobjects hothers => outcome_of_object_error hd hp hs hdone (hchosen.eq_multiple hobjects hothers)
      only_multiple := fun hengine h => ?_
      succeeds := fun hmixed hmultiple hcompile ⟨_, hengine⟩ =>
        exists_of_outcome hchosen hmixed hmultiple hcompile hengine
      element := fun type h => ?_
      independent := fun other ho hos hsame hfresh hfresh' ⟨_, hengine⟩ ⟨_, hengine'⟩ => ?_ }
  · rw [object_of_outcome_refused hd hp hs rfl hengine h] at hchosen
    cases hchosen with
    | mixed hobjects hothers => exact ⟨hobjects, hothers⟩
  · rw [object_of_outcome_refused hd hp hs rfl hengine h] at hchosen
    cases hchosen with
    | multiple hobjects hothers => exact ⟨hobjects, hothers⟩
  · have htype := isFor_of_outcome hd hp hs hdone h
    refine ⟨element_eq_none_iff hchosen htype, fun model hmodel => ?_⟩
    obtain ⟨leaf, hin, hsingle, hfor, hobject⟩ := exists_leaf_of_element hchosen htype hmodel
    exact ⟨leaf, hin, hsingle, hfor, fun hfresh => compiled_of_outcome hfresh hobject h hmodel⟩
  · obtain ⟨others, hothers, hmem⟩ : ∃ others, ExpandsTo job.document (stated other) others ∧
        ∀ leaf, leaf ∈ others ↔ leaf ∈ leaves := hsame.elim id fun hrearranged => hrearranged.covers.1 leaves hleaves
    have hchosen' := chosen_object? hd ho hos hothers fun leaf hleaf => hclassified leaf ((hmem leaf).mp hleaf)
    exact sameElement_of_sameChoice (hchosen.sameChoice hd hreached hmem hchosen') hfresh hfresh' hengine hengine'

end Choosing

section Samples

/-- An array of objects or null, with the object written twice, once among nested alternatives. -/
def nestedChoices : Compilation := ⟨0, .obj [
  ("type", .str "array"),
  ("prefixItems", .arr [.obj [("$ref", .str "#/definitions/p")]]),
  ("items", .obj [("anyOf", .arr [.obj [("type", .str "null")],
    .obj [("oneOf", .arr [.obj [("$ref", .str "#/definitions/p")]])]])]),
  ("definitions", .obj [("p", .obj [("type", .str "object"), ("properties", .obj [("a", .obj [])])])])],
  fun _ => .ok fun _ v => .ok v, .strict⟩

/-- The object is taken for the elements. -/
theorem choosesBySet_nested :
    let object : Place := ⟨"#/definitions/p", .obj [("type", .str "object"), ("properties", .obj [("a", .obj [])])]⟩
    let leaves : List Place := [object, ⟨"#/items/anyOf/0", .obj [("type", .str "null")]⟩, object]
    let array := Place.root nestedChoices.document
    ExpandsTo nestedChoices.document (stated array) leaves ∧
      ChoosesBySet nestedChoices nestedChoices.modelType ⟨[], [], []⟩ array leaves ∧
      ∃ type model, nestedChoices.outcome nestedChoices.modelType ⟨[], [], []⟩ array = .ok type ∧
        type.element = some model ∧ model.IsFor nestedChoices object := by
  intro object leaves array
  have hd : nestedChoices.document.hasDistinctNames := by decide
  have hobject (pointer : String) :
      resolve nestedChoices.document ⟨pointer, .obj [("$ref", .str "#/definitions/p")]⟩ = .ok object := by rfl
  have hself {place : Place} (h : place.node.get? "$ref" = none) :
      place.resolve nestedChoices.document = .ok place := by
    rw [resolve, maxHops, resolveIn, h]
  have hleaves : ExpandsTo nestedChoices.document (stated array) leaves :=
    .leaf (hobject _) rfl (.union (hself rfl) rfl (.leaf (hself rfl) rfl
      (.union (hself rfl) rfl (.leaf (hobject _) rfl .nil))))
  have hclassified : ∀ leaf ∈ leaves, ∃ shape, Shape.ofPlace nestedChoices.document leaf = .ok shape := by
    simp only [leaves, List.forall_mem_cons]
    exact ⟨⟨.object, by rfl⟩, ⟨.scalar, by rfl⟩, ⟨.object, by rfl⟩, fun _ h => absurd h List.not_mem_nil⟩
  have hs : array.HasShape nestedChoices.document .array := ⟨by rfl, by rfl⟩
  have hchooses := choosesBySet nestedChoices hd (placeBound nestedChoices.document) [] (hasOrigins_start _) .root hs
    hleaves hclassified
  have hrun : Success.yields (nestedChoices.outcome nestedChoices.modelType ⟨[], [], []⟩ array) fun type =>
      type.element.isSome := by decide +kernel
  obtain ⟨type, htype, hsome⟩ := Success.exists_of_yields hrun
  obtain ⟨model, hmodel⟩ := Option.isSome_iff_exists.mp hsome
  obtain ⟨leaf, hin, hsingle, hfor, _⟩ := (hchooses.element type htype).2 model hmodel
  have hmem : object.pointer ∈ objectPointers nestedChoices.document leaves :=
    ⟨object, List.mem_cons_self, by rfl, rfl⟩
  rw [hsingle, Set.mem_singleton_iff] at hmem
  have hleaf : leaf = object := by
    simp only [leaves, List.mem_cons, List.not_mem_nil, or_false] at hin
    rcases hin with rfl | rfl | rfl
    · rfl
    · exact absurd hmem (by decide)
    · rfl
  exact ⟨hleaves, hchooses, type, model, htype, hmodel, hleaf ▸ hfor⟩

end Samples

end Compilation
end SchemaBound
