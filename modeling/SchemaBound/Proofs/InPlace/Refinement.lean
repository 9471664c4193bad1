import SchemaBound.Proofs.InPlace.Operations

/-! The writes in place do what the writes that yield a new instance do, and leave the instance as it was
where those yield none. -/
namespace SchemaBound.InPlace
open Model (change_eq get?_eq)

variable {σ α : Type}

/-- What an outcome makes of an instance: a failure leaves it. -/
def keeping (before : σ) : Outcome α σ → (Except Error α × σ) × Saved
  | (.ok (a, after), saved) => ((.ok a, after), saved)
  | (.error e, saved) => ((.error e, before), saved)

/-- The operation makes of every instance what `f` yields, and leaves it where `f` fails. -/
def Realizes (op : InPlace σ α) (f : σ → Saved → Outcome α σ) : Prop :=
  ∀ before saved, op.runOn before saved = keeping before (f before saved)

/-- The operation makes of every instance what `f` yields, and fails where `f` fails, in whatever state. -/
def Follows (op : InPlace σ α) (f : σ → Saved → Outcome α σ) : Prop :=
  ∀ before saved, match f before saved with
    | (.ok (a, after), saved') => op.runOn before saved = ((.ok a, after), saved')
    | (.error e, saved') => ∃ left, op.runOn before saved = ((.error e, left), saved')

/-- The outcome of a write that answers nothing and saves nothing. -/
def written (result : Except Error σ) (saved : Saved) : Outcome Unit σ :=
  (result.map fun after => ((), after), saved)

/-- A write with nothing to answer. -/
theorem bind_eq_written (result : Except Error σ) (saved : Saved) :
    ((do
      let after ← result
      return ((), after)), saved) = written result saved := by
  cases result <;> rfl

/-- A write whose answer was dropped. -/
theorem written_map_snd (result : Except Error (Unit × σ)) (saved : Saved) :
    written (result.map (·.2)) saved = (result, saved) := by
  cases result <;> rfl

theorem Realizes.isAtomic {op : InPlace σ α} {f : σ → Saved → Outcome α σ} (h : op.Realizes f) :
    op.IsAtomic := by
  intro before saved e after saved' hrun
  rw [h before saved] at hrun
  rcases hf : f before saved with ⟨result, between⟩
  rw [hf] at hrun
  cases result with
  | ok result => cases (Prod.mk.inj (Prod.mk.inj hrun).1).1
  | error e' => exact (Prod.mk.inj (Prod.mk.inj hrun).1).2.symm

theorem Realizes.follows {op : InPlace σ α} {f : σ → Saved → Outcome α σ} (h : op.Realizes f) :
    op.Follows f := by
  intro before saved
  have hrun := h before saved
  rcases hf : f before saved with ⟨result, between⟩
  rw [hf] at hrun
  cases result with
  | ok result => exact hrun
  | error e => exact ⟨before, hrun⟩

theorem Follows.eq_ok {op : InPlace σ α} {f : σ → Saved → Outcome α σ} (h : op.Follows f) {before after : σ}
    {saved saved' : Saved} {a : α} (hrun : op.runOn before saved = ((.ok a, after), saved')) :
    f before saved = (.ok (a, after), saved') := by
  have hf := h before saved
  rcases hout : f before saved with ⟨result, between⟩
  rw [hout] at hf
  cases result with
  | ok result =>
    have hrun' : op.runOn before saved = ((.ok result.1, result.2), between) := hf
    rw [hrun'] at hrun
    simpa [Prod.ext_iff, and_assoc] using hrun
  | error e =>
    obtain ⟨left, hleft⟩ := hf
    rw [hleft] at hrun
    cases (Prod.mk.inj (Prod.mk.inj hrun).1).1

/-- What the operation yields, without what a failure leaves behind. -/
def outcome (op : InPlace σ α) (before : σ) (saved : Saved) : Outcome α σ :=
  match op.runOn before saved with
  | ((.ok a, after), saved') => (.ok (a, after), saved')
  | ((.error e, _), saved') => (.error e, saved')

theorem follows_outcome (op : InPlace σ α) : op.Follows op.outcome := by
  intro before saved
  unfold outcome
  rcases hrun : op.runOn before saved with ⟨⟨result, after⟩, saved'⟩
  cases result with
  | ok a => rfl
  | error e => exact ⟨after, rfl⟩

section Fields

variable {m : Model} {name : String}

theorem runOn_commitModel (staged : List (Option FieldValue)) (m : Model) (saved : Saved) :
    (commitModel staged).runOn m saved = keeping m (written (m.type.commit staged) saved) := by
  unfold commitModel ModelType.commit
  rw [runOn_bind, runOn_get]
  dsimp only
  cases m.type.check (.obj (snapshot m.type.fields staged)) with
  | ok canonical => rfl
  | error violations => rfl

/-- Changing a field in place, where the new content comes without touching the model. -/
theorem runOn_changeField {change : Field → Option FieldValue → InPlace Model (α × Option FieldValue)}
    {f : Field → Option FieldValue → Saved → Except Error (α × Option FieldValue) × Saved}
    (h : ∀ field current before saved, (change field current).runOn before saved =
      (((f field current saved).1, before), (f field current saved).2)) (m : Model) (saved : Saved) :
    (changeField name change).runOn m saved =
      match m.slotOf? name with
      | none => ((.error (.unknownField name), m), saved)
      | some (slot, field, current) => keeping m
        ((do
          let (a, value) ← (f field current saved).1
          return (a, ← m.type.commit (m.values.set slot value))), (f field current saved).2) := by
  unfold changeField
  rw [runOn_bind, runOn_get]
  dsimp only
  cases m.slotOf? name with
  | none => rfl
  | some slot =>
    obtain ⟨i, field, current⟩ := slot
    dsimp only
    rw [runOn_bind, h]
    rcases f field current saved with ⟨result, saved'⟩
    cases result with
    | error e => rfl
    | ok result =>
      obtain ⟨a, value⟩ := result
      dsimp only
      rw [runOn_bind, runOn_commitModel]
      change _ = keeping m (Except.bind (m.type.commit (m.values.set i value)) _, saved')
      cases m.type.commit (m.values.set i value) with
      | ok after => rfl
      | error e => rfl

/-- The same for a content that comes without saving anything either. -/
theorem realizes_changeField {change : Field → Option FieldValue → InPlace Model (α × Option FieldValue)}
    {f : Field → Option FieldValue → Except Error (α × Option FieldValue)}
    (h : ∀ field current before saved,
      (change field current).runOn before saved = ((f field current, before), saved)) :
    (changeField name change).Realizes fun m saved => (m.change name f, saved) := by
  intro m saved
  dsimp only
  rw [runOn_changeField (f := fun field current saved => (f field current, saved)) h, change_eq]
  cases m.slotOf? name with
  | none => rfl
  | some slot => rfl

theorem realizes_setField (input : FieldValue) :
    (setField name input).Realizes fun m saved => written (m.set name input) saved := by
  intro m saved
  unfold Model.set
  dsimp only
  rw [written_map_snd]
  refine realizes_changeField (fun field current before saved => ?_) m saved
  rw [runOn_bind, runOn_lift]
  cases (field.kind.stage current input).mapError (·.under (Pointer.child name)) <;> rfl

theorem realizes_replaceField (input : FieldValue) :
    (replaceField name input).Realizes fun m saved => written (m.replace name input) saved := by
  intro m saved
  unfold Model.replace
  dsimp only
  rw [written_map_snd]
  refine realizes_changeField (fun field current before saved => ?_) m saved
  rw [runOn_bind, runOn_lift]
  cases (field.kind.stage none input).mapError (·.under (Pointer.child name)) <;> rfl

theorem realizes_unsetField :
    (unsetField name).Realizes fun m saved => written (m.unset name) saved := by
  intro m saved
  unfold Model.unset
  dsimp only
  rw [written_map_snd]
  exact realizes_changeField (fun field current before saved => rfl) m saved

theorem realizes_load {stage : Model → Except Error (List (Option FieldValue))} :
    (load stage).Realizes fun m saved => written (do m.type.commit (← stage m)) saved := by
  intro m saved
  unfold load
  rw [runOn_bind, runOn_get]
  dsimp only
  rw [runOn_bind, runOn_lift]
  cases stage m with
  | ok staged => exact runOn_commitModel staged m saved
  | error e => rfl

theorem realizes_setData (data : Json) :
    (setData data).Realizes fun m saved => written (m.setData data) saved := by
  intro m saved
  cases data with
  | obj data =>
    obtain ⟨⟨id, title, fields, validator, options⟩, values⟩ := m
    dsimp only [setData, Model.setData]
    rw [ModelType.build]
    exact realizes_load _ saved
  | _ => rfl

theorem realizes_updateData (data : Json) :
    (updateData data).Realizes fun m saved => written (m.updateData data) saved := by
  intro m saved
  cases data with
  | obj data =>
    obtain ⟨type, values⟩ := m
    dsimp only [updateData, Model.updateData]
    rw [Model.merge]
    exact realizes_load _ saved
  | _ => rfl

/-- Only what is done to the content of the field counts. -/
theorem change_congr {f f' : Field → Option FieldValue → Except Error (α × Option FieldValue)}
    (h : ∀ field, f field (m.get? name) = f' field (m.get? name)) : m.change name f = m.change name f' := by
  refine Model.change_congr fun slot field current hslot => ?_
  have hfield := h field
  rwa [get?_eq, hslot] at hfield

theorem runOn_onCopy_of_follows {τ : Type} {op : InPlace τ α} {g : τ → Saved → Outcome α τ}
    (hop : op.Follows g) (nest : Error → Error) (copy : τ) (before : σ) (saved : Saved) :
    (onCopy nest op copy).runOn before saved =
      (((g copy saved).1.mapError nest, before), (g copy saved).2) := by
  have hrun := hop copy saved
  rw [runOn_onCopy]
  rcases hg : g copy saved with ⟨result, saved'⟩
  rw [hg] at hrun
  cases result with
  | ok result =>
    rw [show op.runOn copy saved = _ from hrun]
    rfl
  | error e =>
    obtain ⟨left, hleft⟩ := hrun
    rw [hleft]
    rfl

theorem change_map {β : Type} (h : α → β)
    (f : Field → Option FieldValue → Except Error (α × Option FieldValue)) :
    (m.change name f).map (fun (a, after) => (h a, after)) =
      m.change name fun field current => (f field current).map fun (a, value) => (h a, value) := by
  rw [change_eq, change_eq]
  cases m.slotOf? name with
  | none => rfl
  | some slot =>
    obtain ⟨i, field, current⟩ := slot
    dsimp only
    cases f field current with
    | error e => rfl
    | ok result =>
      obtain ⟨a, value⟩ := result
      change Except.map _ (Except.bind (m.type.commit (m.values.set i value)) _) =
        Except.bind (m.type.commit (m.values.set i value)) _
      cases m.type.commit (m.values.set i value) <;> rfl

/-- What becomes of a field when the copy of what it holds has its outcome. -/
def putBack {τ : Type} (hold : τ → FieldValue) (name : String) (result : Except Error (α × τ)) :
    Except Error (α × Option FieldValue) :=
  (result.mapError (Error.under (Pointer.child name))).map fun (a, after) => (a, some (hold after))

section Nested

variable {τ : Type} {view : FieldValue → Option τ} {hold : τ → FieldValue} {absent : Error}

/-- Changing a copy of what a field holds and putting it back. The operation on the copy may leave anything
behind when it fails. -/
theorem realizes_withNested {f : InPlace τ α} {g : τ → Saved → Outcome α τ} (hf : f.Follows g) :
    (withNested view hold absent name f).Realizes fun m saved =>
      match (m.get? name).bind view with
      | none => (m.change name fun _ _ => .error absent, saved)
      | some nested => (m.change name fun _ _ => putBack hold name (g nested saved).1, (g nested saved).2) := by
  intro m saved
  unfold withNested
  rw [runOn_changeField
    (f := fun _ current saved => (current.bind view).elim (.error absent, saved) fun nested =>
      (putBack hold name (g nested saved).1, (g nested saved).2))]
  · simp only [get?_eq, change_eq]
    cases m.slotOf? name with
    | none => rfl
    | some slot =>
      obtain ⟨i, field, current⟩ := slot
      dsimp only [Option.bind_some]
      cases current.bind view with
      | none => rfl
      | some nested => rfl
  · intro field current before saved
    cases current.bind view with
    | none => rfl
    | some nested =>
      dsimp only [Option.elim_some]
      rw [runOn_bind, runOn_onCopy_of_follows hf]
      rcases g nested saved with ⟨result, saved'⟩
      cases result <;> rfl

end Nested

theorem model?_eq : m.model? name = (m.get? name).bind FieldValue.asModel? := by
  unfold Model.model?
  match m.get? name with
  | some (.model nested) => rfl
  | none | some (.plain _) | some (.sequence _) => rfl

theorem sequence?_eq : m.sequence? name = (m.get? name).bind FieldValue.asSequence? := by
  unfold Model.sequence?
  match m.get? name with
  | some (.sequence nested) => rfl
  | none | some (.plain _) | some (.model _) => rfl

theorem withModel_of_none (h : m.model? name = none) (f : Model → Except Error (α × Model)) :
    m.withModel name f = m.change name fun _ _ => .error (.notAModel name) := by
  refine change_congr fun field => ?_
  rw [model?_eq] at h
  match hget : m.get? name with
  | some (.model nested) => simp [hget, FieldValue.asModel?] at h
  | none | some (.plain _) | some (.sequence _) => rfl

theorem withModel_of_some {nested : Model} (h : m.model? name = some nested)
    (f : Model → Except Error (α × Model)) :
    m.withModel name f = m.change name fun _ _ => putBack .model name (f nested) := by
  refine change_congr fun field => ?_
  rw [model?_eq] at h
  match hget : m.get? name with
  | some (.model nested') =>
    obtain rfl : nested' = nested := by simpa [hget, FieldValue.asModel?] using h
    dsimp only
    cases f nested' <;> rfl
  | none | some (.plain _) | some (.sequence _) => simp [hget, FieldValue.asModel?] at h

/-- A change of the nested instance is asked about that instance only. -/
theorem withModel_eq_const {nested : Model} (h : m.model? name = some nested)
    (f : Model → Except Error (α × Model)) : m.withModel name f = m.withModel name fun _ => f nested := by
  rw [withModel_of_some h, withModel_of_some h]

theorem withSequence_of_none (h : m.sequence? name = none) (f : Sequence → Except Error (α × Sequence)) :
    m.withSequence name f = m.change name fun _ _ => .error (.notASequence name) := by
  refine change_congr fun field => ?_
  rw [sequence?_eq] at h
  match hget : m.get? name with
  | some (.sequence nested) => simp [hget, FieldValue.asSequence?] at h
  | none | some (.plain _) | some (.model _) => rfl

theorem withSequence_of_some {nested : Sequence} (h : m.sequence? name = some nested)
    (f : Sequence → Except Error (α × Sequence)) :
    m.withSequence name f = m.change name fun _ _ => putBack .sequence name (f nested) := by
  refine change_congr fun field => ?_
  rw [sequence?_eq] at h
  match hget : m.get? name with
  | some (.sequence nested') =>
    obtain rfl : nested' = nested := by simpa [hget, FieldValue.asSequence?] using h
    dsimp only
    cases f nested' <;> rfl
  | none | some (.plain _) | some (.model _) => simp [hget, FieldValue.asSequence?] at h

/-- A change of the sequence is asked about that sequence only. -/
theorem withSequence_eq_const {nested : Sequence} (h : m.sequence? name = some nested)
    (f : Sequence → Except Error (α × Sequence)) :
    m.withSequence name f = m.withSequence name fun _ => f nested := by
  rw [withSequence_of_some h, withSequence_of_some h]

/-- Where there is no nested instance, no change of it counts. -/
theorem realizes_withModel {f : InPlace Model α} {g : Model → Saved → Outcome α Model} (hf : f.Follows g)
    (unused : Model → Except Error (α × Model)) :
    (withModel name f).Realizes fun m saved =>
      match m.model? name with
      | none => (m.withModel name unused, saved)
      | some nested => (m.withModel name fun _ => (g nested saved).1, (g nested saved).2) := by
  intro m saved
  unfold withModel
  rw [realizes_withNested hf]
  dsimp only
  rw [← model?_eq]
  cases hnested : m.model? name with
  | none =>
    dsimp only
    rw [withModel_of_none hnested]
  | some nested =>
    dsimp only
    rw [withModel_of_some hnested]

/-- Where there is no sequence, no change of it counts. -/
theorem realizes_withSequence {f : InPlace Sequence α} {g : Sequence → Saved → Outcome α Sequence}
    (hf : f.Follows g) (unused : Sequence → Except Error (α × Sequence)) :
    (withSequence name f).Realizes fun m saved =>
      match m.sequence? name with
      | none => (m.withSequence name unused, saved)
      | some nested => (m.withSequence name fun _ => (g nested saved).1, (g nested saved).2) := by
  intro m saved
  unfold withSequence
  rw [realizes_withNested hf]
  dsimp only
  rw [← sequence?_eq]
  cases hnested : m.sequence? name with
  | none =>
    dsimp only
    rw [withSequence_of_none hnested]
  | some nested =>
    dsimp only
    rw [withSequence_of_some hnested]

private theorem putBack_map {τ β : Type} {hold : τ → FieldValue} (h : α → β) (result : Except Error (α × τ)) :
    (putBack hold name result).map (fun (a, value) => (h a, value)) =
      putBack hold name (result.map fun (a, after) => (h a, after)) := by
  cases result <;> rfl

theorem withModel_map {β : Type} (h : α → β) (f : Model → Except Error (α × Model)) :
    (m.withModel name f).map (fun (a, after) => (h a, after)) =
      m.withModel name fun nested => (f nested).map fun (a, after) => (h a, after) := by
  cases hnested : m.model? name with
  | none =>
    rw [withModel_of_none hnested, withModel_of_none hnested, change_map]
    rfl
  | some nested =>
    rw [withModel_of_some hnested, withModel_of_some hnested, change_map]
    simp only [putBack_map]

theorem withSequence_map {β : Type} (h : α → β) (f : Sequence → Except Error (α × Sequence)) :
    (m.withSequence name f).map (fun (a, after) => (h a, after)) =
      m.withSequence name fun nested => (f nested).map fun (a, after) => (h a, after) := by
  cases hnested : m.sequence? name with
  | none =>
    rw [withSequence_of_none hnested, withSequence_of_none hnested, change_map]
    rfl
  | some nested =>
    rw [withSequence_of_some hnested, withSequence_of_some hnested, change_map]
    simp only [putBack_map]

end Fields

section Items

variable {s : Sequence}

theorem runOn_commitSequence (staged : List (Option Element)) (s : Sequence) (saved : Saved) :
    (commitSequence staged).runOn s saved = keeping s (written (s.type.commit staged) saved) := by
  unfold commitSequence SequenceType.commit
  rw [runOn_bind, runOn_get]
  dsimp only
  cases s.type.check (.arr (listing staged)) with
  | ok canonical => rfl
  | error violations => rfl

theorem realizes_changeItems {stage : Sequence → Except Error (α × List (Option Element))} :
    (changeItems stage).Realizes fun s saved =>
      ((do
        let (a, staged) ← stage s
        return (a, ← s.type.commit staged)), saved) := by
  intro s saved
  unfold changeItems
  rw [runOn_bind, runOn_get]
  dsimp only
  rw [runOn_bind, runOn_lift]
  cases stage s with
  | error e => rfl
  | ok result =>
    obtain ⟨a, staged⟩ := result
    dsimp only
    rw [runOn_bind, runOn_commitSequence]
    change _ = keeping s (Except.bind (s.type.commit staged) _, saved)
    cases s.type.commit staged <;> rfl

theorem realizes_push (inputs : List Element) :
    (push inputs).Realizes fun s saved => written (s.push inputs) saved := by
  intro s saved
  unfold push Sequence.push
  rw [realizes_changeItems]
  dsimp only
  cases s.type.stageFrom s.size inputs with
  | error e => rfl
  | ok staged => exact congrArg (keeping s) (bind_eq_written (s.type.commit (s.items ++ staged)) saved)

theorem realizes_append (input : Element) :
    (append input).Realizes fun s saved => written (s.append input) saved := by
  intro s saved
  unfold append Sequence.append
  rw [realizes_changeItems]
  dsimp only
  cases (s.type.stage input).mapError (·.under (elementPointer s.size)) with
  | error e => rfl
  | ok e => exact congrArg (keeping s) (bind_eq_written (s.type.commit (s.items ++ [some e])) saved)

theorem realizes_prepend (inputs : List Element) :
    (prepend inputs).Realizes fun s saved => written (s.prepend inputs) saved := by
  intro s saved
  unfold prepend Sequence.prepend
  rw [realizes_changeItems]
  dsimp only
  cases s.type.stageFrom 0 inputs with
  | error e => rfl
  | ok staged => exact congrArg (keeping s) (bind_eq_written (s.type.commit (staged ++ s.items)) saved)

theorem realizes_removeLast : removeLast.Realizes fun s saved => (s.removeLast, saved) := by
  intro s saved
  unfold removeLast Sequence.removeLast
  rw [runOn_bind, runOn_get]
  dsimp only
  cases s.items.getLast? with
  | none => rfl
  | some e => exact realizes_changeItems s saved

theorem realizes_removeFirst : removeFirst.Realizes fun s saved => (s.removeFirst, saved) := by
  intro s saved
  unfold removeFirst Sequence.removeFirst
  rw [runOn_bind, runOn_get]
  dsimp only
  cases s.items with
  | nil => rfl
  | cons e rest => exact realizes_changeItems s saved

theorem realizes_setAt [Memory] (i : Nat) (input : Element) :
    (setAt i input).Realizes fun s saved => written (s.setAt i input) saved := by
  intro s saved
  unfold setAt Sequence.setAt
  rw [realizes_changeItems]
  dsimp only
  by_cases hlimit : s.size ≤ i ∧ Memory.growthLimit ≤ i
  · simp only [if_pos hlimit]
    rfl
  · simp only [if_neg hlimit]
    cases (s.type.stage input).mapError (·.under (elementPointer i)) with
    | error e => rfl
    | ok e => exact congrArg (keeping s) (bind_eq_written (s.type.commit _) saved)

theorem realizes_spliceAt (start count : Nat) (inputs : List Element) :
    (spliceAt start count inputs).Realizes fun s saved => (s.spliceAt start count inputs, saved) := by
  intro s saved
  unfold spliceAt Sequence.spliceAt
  rw [realizes_changeItems]
  dsimp only
  cases s.type.stageFrom (min start s.size) inputs with
  | error e => rfl
  | ok inserted => rfl

/-- Changing a copy of the instance at a position and putting it back. -/
theorem realizes_updateAt {i : Nat} {f : InPlace Model α} {g : Model → Saved → Outcome α Model}
    (hf : f.Follows g) :
    (updateAt i f).Realizes fun s saved =>
      match s.get? i with
      | some (.model nested) => (s.updateAt i fun _ => (g nested saved).1, (g nested saved).2)
      | _ => (.error (.notAModel (toString i)), saved) := by
  intro s saved
  unfold updateAt Sequence.updateAt
  rw [runOn_bind, runOn_get]
  dsimp only
  match s.get? i with
  | some (.model nested) =>
    dsimp only
    rw [runOn_bind, runOn_onCopy_of_follows hf]
    rcases g nested saved with ⟨result, saved'⟩
    cases result with
    | error e => rfl
    | ok result =>
      obtain ⟨a, after⟩ := result
      dsimp only [Except.mapError]
      rw [runOn_bind, runOn_commitSequence]
      change _ = keeping s (Except.bind (s.type.commit (s.items.set i (some (.model after)))) _, saved')
      cases s.type.commit (s.items.set i (some (.model after))) <;> rfl
  | none | some (.plain _) => rfl

theorem updateAt_map {β : Type} {i : Nat} (h : α → β) (f : Model → Except Error (α × Model)) :
    (s.updateAt i f).map (fun (a, after) => (h a, after)) =
      s.updateAt i fun nested => (f nested).map fun (a, after) => (h a, after) := by
  unfold Sequence.updateAt
  match s.get? i with
  | some (.model nested) =>
    dsimp only
    cases f nested with
    | error e => rfl
    | ok result =>
      obtain ⟨a, after⟩ := result
      change Except.map _ (Except.bind (s.type.commit (s.items.set i (some (.model after)))) _) =
        Except.bind (s.type.commit (s.items.set i (some (.model after)))) _
      cases s.type.commit (s.items.set i (some (.model after))) <;> rfl
  | none | some (.plain _) => rfl

end Items

section Edits

variable [Memory] {pointer : String} {change : Edit}

mutual
theorem realizes_editModel : ∀ tokens : List String,
    (editModel pointer change tokens).Realizes fun m saved => written (m.edit pointer change tokens) saved
  | [] => fun m saved => by simp [editModel, Model.edit, written, keeping, Except.map]
  | [name] => fun m saved => by
    cases change with
    | set v =>
      dsimp only
      rw [editModel, Model.edit]
      exact realizes_setField (.plain v) m saved
    | unset =>
      dsimp only
      rw [editModel, Model.edit]
      exact realizes_unsetField m saved
  | name :: next :: rest => fun m saved => by
    have hmodel := (realizes_editModel (next :: rest)).follows
    have hsequence := (realizes_editSequence (next :: rest)).follows
    dsimp only
    unfold editModel Model.edit
    rw [runOn_bind, runOn_get]
    dsimp only
    match hget : m.get? name with
    | some (.model nested) =>
      have hnested : m.model? name = some nested := by rw [model?_eq, hget]; rfl
      dsimp only
      rw [written_map_snd, withModel_eq_const hnested,
        realizes_withModel hmodel fun _ => .error .nothingThere]
      dsimp only
      rw [hnested]
      dsimp only
      rw [← bind_eq_written]
    | some (.sequence nested) =>
      have hnested : m.sequence? name = some nested := by rw [sequence?_eq, hget]; rfl
      dsimp only
      rw [written_map_snd, withSequence_eq_const hnested,
        realizes_withSequence hsequence fun _ => .error .nothingThere]
      dsimp only
      rw [hnested]
      dsimp only
      rw [← bind_eq_written]
    | none | some (.plain _) =>
      dsimp only
      cases m.type.field? name <;> rfl

theorem realizes_editSequence : ∀ tokens : List String,
    (editSequence pointer change tokens).Realizes fun s saved =>
      written (s.edit pointer change tokens) saved
  | [] => fun s saved => by simp [editSequence, Sequence.edit, written, keeping, Except.map]
  | [token] => fun s saved => by
    dsimp only
    unfold editSequence Sequence.edit
    rw [runOn_bind, runOn_get]
    dsimp only
    rw [runOn_bind, runOn_lift]
    cases Pointer.position pointer token s.size with
    | error e => rfl
    | ok i =>
      cases change with
      | set v => exact realizes_setAt i (.plain v) s saved
      | unset =>
        change InPlace.runOn (if i < s.size then _ else _) s saved = keeping s (written (if i < s.size then _ else _) saved)
        by_cases hi : i < s.size
        · rw [if_pos hi, if_pos hi, runOn_bind, realizes_spliceAt]
          dsimp only
          cases s.spliceAt i 1 [] <;> rfl
        · rw [if_neg hi, if_neg hi]
          rfl
  | token :: next :: rest => fun s saved => by
    have hmodel := (realizes_editModel (next :: rest)).follows
    dsimp only
    unfold editSequence Sequence.edit
    rw [runOn_bind, runOn_get]
    dsimp only
    rw [runOn_bind, runOn_lift]
    cases Pointer.position pointer token s.size with
    | error e => rfl
    | ok i =>
      change InPlace.runOn (match s.get? i with | some (.model _) => _ | _ => _) s saved =
        keeping s (written (match s.get? i with | some (.model _) => _ | _ => _) saved)
      match hget : s.get? i with
      | some (.model nested) =>
        dsimp only
        rw [realizes_updateAt hmodel]
        dsimp only
        rw [hget]
        dsimp only
        unfold Sequence.updateAt
        rw [hget, ← bind_eq_written]
        exact (congrArg (keeping s) (written_map_snd _ saved)).symm
      | none | some (.plain _) => rfl
end

theorem realizes_setPointer (v : Json) :
    (setPointer pointer v).Realizes fun m saved => written (m.setPointer pointer v) saved := by
  intro m saved
  unfold setPointer Model.setPointer
  rw [runOn_bind, runOn_lift]
  cases Pointer.target pointer with
  | error e => rfl
  | ok tokens => exact realizes_editModel tokens m saved

theorem realizes_unsetPointer :
    (unsetPointer pointer).Realizes fun m saved => written (m.unsetPointer pointer) saved := by
  intro m saved
  unfold unsetPointer Model.unsetPointer
  rw [runOn_bind, runOn_lift]
  cases Pointer.target pointer with
  | error e => rfl
  | ok tokens => exact realizes_editModel tokens m saved

end Edits
end SchemaBound.InPlace
