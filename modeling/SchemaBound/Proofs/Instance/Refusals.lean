import SchemaBound.Proofs.Blueprint.Throughout
import SchemaBound.Proofs.Failure
import SchemaBound.Proofs.Instance.Splices

/-! How writes fail: by a failure of what they read or make for a field or a position, or by the check of the whole. -/
namespace SchemaBound
open Success Failure

/-- The violations that the error speaks of, if it does, are what the type finds in a value. -/
def Blueprint.Owns (type : Blueprint) (e : Error) : Prop :=
  ∀ violations, e = .validation violations → ∃ v, type.check v = .error violations

theorem Blueprint.owns_of_ne {type : Blueprint} {e : Error} (h : ∀ violations, e ≠ .validation violations) :
    type.Owns e :=
  fun violations he => absurd he (h violations)

theorem ModelType.owns_of_commit {type : ModelType} {staged : List (Option FieldValue)} {e : Error}
    (h : type.commit staged = .error e) : (Blueprint.model type).Owns e := by
  unfold commit at h
  split at h
  · cases h
  · rename_i violations hcheck
    rintro _ rfl
    obtain rfl := Error.validation.inj (Except.error.inj h)
    exact ⟨_, hcheck⟩

theorem SequenceType.owns_of_commit {type : SequenceType} {staged : List (Option Element)} {e : Error}
    (h : type.commit staged = .error e) : (Blueprint.sequence type).Owns e := by
  unfold commit at h
  split at h
  · cases h
  · rename_i violations hcheck
    rintro _ rfl
    obtain rfl := Error.validation.inj (Except.error.inj h)
    exact ⟨_, hcheck⟩

namespace Model

variable {α : Type} {m : Model} {name : String} {slot : Nat} {field : Field} {current : Option FieldValue}
  {cause e : Error}

theorem change_eq_error {f : Field → Option FieldValue → Except Error (α × Option FieldValue)}
    (hslot : m.slotOf? name = some (slot, field, current)) (h : f field current = .error e) :
    m.change name f = .error e := by
  rw [change_eq, hslot]
  dsimp only
  rw [h]
  rfl

/-- A change of a field fails by what is done to the content, or it is the model's own failure. -/
theorem exists_of_change_eq_error {f : Field → Option FieldValue → Except Error (α × Option FieldValue)}
    (h : m.change name f = .error e) :
    (∃ slot field current, m.slotOf? name = some (slot, field, current) ∧ f field current = .error e) ∨
      (Blueprint.model m.type).Owns e := by
  rw [change_eq] at h
  cases hslot : m.slotOf? name with
  | none =>
    rw [hslot] at h
    obtain rfl := Except.error.inj h
    exact .inr (Blueprint.owns_of_ne (by simp))
  | some found =>
    obtain ⟨slot, field, current⟩ := found
    rw [hslot] at h
    rcases bind_eq_error.mp h with hf | ⟨⟨a, value⟩, _, h⟩
    · exact .inl ⟨slot, field, current, rfl, hf⟩
    · rcases bind_eq_error.mp h with hcommit | ⟨_, _, h⟩
      · exact .inr (ModelType.owns_of_commit hcommit)
      · exact absurd h pure_ne_error

section Assignment

variable {stage : Field → Option FieldValue → Except Error FieldValue}

/-- Gives a field the content that is made for it. -/
def assign (m : Model) (name : String) (stage : Field → Option FieldValue → Except Error FieldValue) :
    Except Error Model :=
  (m.change name fun field current => do
    let value ← (stage field current).mapError (·.under (Pointer.child name))
    return ((), some value)).map (·.2)

theorem set_eq_assign (input : FieldValue) :
    m.set name input = m.assign name fun field current => field.kind.stage current input := rfl

theorem replace_eq_assign (input : FieldValue) :
    m.replace name input = m.assign name fun field _ => field.kind.stage none input := rfl

theorem assign_eq_error (hslot : m.slotOf? name = some (slot, field, current))
    (h : stage field current = .error cause) : m.assign name stage = .error (cause.under (Pointer.child name)) := by
  refine map_eq_error.mpr (change_eq_error hslot (bind_eq_error.mpr (.inl ?_)))
  rw [h]
  rfl

theorem exists_of_assign_eq_error (h : m.assign name stage = .error e) :
    (∃ slot field current cause, m.slotOf? name = some (slot, field, current) ∧ stage field current = .error cause ∧
      e = cause.under (Pointer.child name)) ∨ (Blueprint.model m.type).Owns e := by
  rcases exists_of_change_eq_error (map_eq_error.mp h) with ⟨slot, field, current, hslot, hstage⟩ | howns
  · rcases bind_eq_error.mp hstage with hstage | ⟨_, _, hpure⟩
    · obtain ⟨cause, hcause, rfl⟩ := mapError_eq_error.mp hstage
      exact .inl ⟨slot, field, current, cause, hslot, hcause, rfl⟩
    · exact absurd hpure pure_ne_error
  · exact .inr howns

end Assignment

theorem owns_of_unset_eq_error (h : m.unset name = .error e) : (Blueprint.model m.type).Owns e := by
  rcases exists_of_change_eq_error (map_eq_error.mp h) with ⟨_, _, _, _, hclear⟩ | howns
  · cases hclear
  · exact howns

theorem putBack_eq_error {τ : Type} {hold : τ → FieldValue} {result : Except Error (α × τ)} :
    InPlace.putBack hold name result = .error e ↔
      ∃ cause, result = .error cause ∧ e = cause.under (Pointer.child name) := by
  rw [InPlace.putBack, map_eq_error, mapError_eq_error]
  simp only [eq_comm]

theorem withModel_eq_error {nested : Model} (hnested : m.model? name = some nested)
    {f : Model → Except Error (α × Model)} (h : f nested = .error cause) :
    m.withModel name f = .error (cause.under (Pointer.child name)) := by
  obtain ⟨slot, field, hslot⟩ := slotOf?_of_get? (get?_of_model? hnested)
  rw [InPlace.withModel_of_some hnested]
  exact change_eq_error hslot (putBack_eq_error.mpr ⟨cause, h, rfl⟩)

theorem withSequence_eq_error {nested : Sequence} (hnested : m.sequence? name = some nested)
    {f : Sequence → Except Error (α × Sequence)} (h : f nested = .error cause) :
    m.withSequence name f = .error (cause.under (Pointer.child name)) := by
  obtain ⟨slot, field, hslot⟩ := slotOf?_of_get? (get?_of_sequence? hnested)
  rw [InPlace.withSequence_of_some hnested]
  exact change_eq_error hslot (putBack_eq_error.mpr ⟨cause, h, rfl⟩)

/-- A change of a field that does not have the form for it is the model's own failure. -/
private theorem owns_of_change_const
    (h : (m.change name fun _ _ => .error cause : Except Error (α × Model)) = .error e)
    (he : ∀ violations, cause ≠ .validation violations) :
    (Blueprint.model m.type).Owns e := by
  rcases exists_of_change_eq_error h with ⟨_, _, _, _, hcause⟩ | howns
  · obtain rfl := Except.error.inj hcause
    exact Blueprint.owns_of_ne he
  · exact howns

theorem exists_of_withModel_eq_error {f : Model → Except Error (α × Model)} (h : m.withModel name f = .error e) :
    (∃ nested cause, m.model? name = some nested ∧ f nested = .error cause ∧ e = cause.under (Pointer.child name)) ∨
      (Blueprint.model m.type).Owns e := by
  cases hnested : m.model? name with
  | none =>
    rw [InPlace.withModel_of_none hnested] at h
    exact .inr (owns_of_change_const h (by simp))
  | some nested =>
    rw [InPlace.withModel_of_some hnested] at h
    rcases exists_of_change_eq_error h with ⟨_, _, _, _, hput⟩ | howns
    · obtain ⟨cause, hcause, rfl⟩ := putBack_eq_error.mp hput
      exact .inl ⟨nested, cause, rfl, hcause, rfl⟩
    · exact .inr howns

theorem exists_of_withSequence_eq_error {f : Sequence → Except Error (α × Sequence)}
    (h : m.withSequence name f = .error e) :
    (∃ nested cause, m.sequence? name = some nested ∧ f nested = .error cause ∧
      e = cause.under (Pointer.child name)) ∨ (Blueprint.model m.type).Owns e := by
  cases hnested : m.sequence? name with
  | none =>
    rw [InPlace.withSequence_of_none hnested] at h
    exact .inr (owns_of_change_const h (by simp))
  | some nested =>
    rw [InPlace.withSequence_of_some hnested] at h
    rcases exists_of_change_eq_error h with ⟨_, _, _, _, hput⟩ | howns
    · obtain ⟨cause, hcause, rfl⟩ := putBack_eq_error.mp hput
      exact .inl ⟨nested, cause, rfl, hcause, rfl⟩
    · exact .inr howns

end Model

section Merging

variable {fields : List Field} {values : List (Option FieldValue)} {data : List (String × Json)} {e : Error}

theorem mergeFields_cons_eq_error {field : Field} {current : Option FieldValue} :
    mergeFields (field :: fields) (current :: values) data = .error e ↔
      (∃ v cause, data.lookup field.name = some v ∧ mergeValue field.kind current v = .error cause ∧
        e = cause.under (Pointer.child field.name)) ∨
      (∃ slot, mergeSlot field.kind current (data.lookup field.name) = .ok slot) ∧
        mergeFields fields values data = .error e := by
  rw [mergeFields]
  cases data.lookup field.name with
  | none => simp [mergeSlot, bind_eq_error, pure_ne_error, -bind_pure_comp]
  | some v =>
    cases hv : mergeValue field.kind current v with
    | error cause => simp [hv, mergeSlot, Except.mapError, Except.map, bind, Except.bind, eq_comm]
    | ok value =>
      simp [hv, mergeSlot, Except.mapError, Except.map, bind_eq_error, pure_ne_error, -bind_pure_comp]

/-- Reading an object fails by the first member that its field refuses. -/
theorem mergeFields_eq_error : mergeFields fields values data = .error e ↔
    ∃ k field current v staged cause, fields[k]? = some field ∧ values[k]? = some current ∧
      mergeFields (fields.take k) (values.take k) data = .ok staged ∧ data.lookup field.name = some v ∧
      mergeValue field.kind current v = .error cause ∧ e = cause.under (Pointer.child field.name) := by
  induction fields generalizing values with
  | nil => simp
  | cons field fields ih =>
    cases values with
    | nil => simp
    | cons current values =>
      rw [mergeFields_cons_eq_error, ih]
      constructor
      · rintro (⟨v, cause, hv, hcause, rfl⟩ | ⟨⟨slot, hslot⟩, hrest⟩)
        · exact ⟨0, field, current, v, [], cause, rfl, rfl, by simp, hv, hcause, rfl⟩
        · obtain ⟨k, next, found, v, staged, cause, hnext, hfound, hstaged, hrest⟩ := hrest
          refine ⟨k + 1, next, found, v, slot :: staged, cause, hnext, hfound, ?_, hrest⟩
          rw [List.take_succ_cons, List.take_succ_cons]
          exact mergeFields_cons_eq_ok.mpr ⟨slot, staged, hslot, hstaged, rfl⟩
      · rintro ⟨k, next, found, v, staged, cause, hnext, hfound, hstaged, hv, hcause, rfl⟩
        cases k with
        | zero =>
          obtain rfl := Option.some.inj hnext
          obtain rfl := Option.some.inj hfound
          exact .inl ⟨v, cause, hv, hcause, rfl⟩
        | succ k =>
          rw [List.take_succ_cons, List.take_succ_cons] at hstaged
          obtain ⟨slot, rest, hslot, hrest, rfl⟩ := mergeFields_cons_eq_ok.mp hstaged
          exact .inr ⟨⟨slot, hslot⟩, k, next, found, v, rest, cause, hnext, hfound, hrest, hv, hcause, rfl⟩

/-- Only objects are read into what a field holds, and only where that is an instance. -/
theorem mergeValue_of_ne_model {kind : FieldKind} {current : Option FieldValue}
    (hcurrent : ∀ m, current ≠ some (.model m)) (v : Json) : mergeValue kind current v = kind.build v :=
  mergeValue.eq_2 kind current v fun _ m _ _ hm _ => hcurrent m hm

theorem mergeValue_array {type : SequenceType} (current : Option FieldValue) (v : Json) :
    mergeValue (.array type) current v = FieldKind.build (.array type) v :=
  mergeValue.eq_2 _ current v (by simp)

theorem buildFields_eq_mergeFields (fields : List Field) (data : List (String × Json)) :
    buildFields fields data = mergeFields fields (fields.map fun _ => none) data := by
  induction fields with
  | nil => simp
  | cons field fields ih =>
    obtain ⟨name, pointer, kind⟩ := field
    have hmade (v : Json) : mergeValue kind none v = kind.build v := mergeValue_of_ne_model (by simp) v
    rw [buildFields, List.map_cons, mergeFields, ih]
    simp only [Field.build, hmade]

/-- Making an instance is reading the object into the empty one. -/
theorem ModelType.build_eq_merge (type : ModelType) (data : List (String × Json)) :
    type.build data = type.empty.merge data := by
  obtain ⟨id, title, fields, validator, options⟩ := type
  rw [build, empty, Model.merge, buildFields_eq_mergeFields]

end Merging

/-- Where a write to a sequence puts its inputs: the index of the first one in the array to be checked, and how that
array is made of them. -/
structure Placement where
  start : Nat
  arrange : List (Option Element) → List (Option Element)

namespace Placement

/-- The inputs are the array. -/
def whole : Placement := ⟨0, id⟩

variable (s : Sequence)

def atEnd : Placement := ⟨s.size, fun staged => s.items ++ staged⟩

def atFront : Placement := ⟨0, fun staged => staged ++ s.items⟩

/-- One input at an index, with holes between the end and it. -/
def atIndex (i : Nat) : Placement :=
  ⟨i, fun staged => (s.items ++ List.replicate (i + 1 - s.size) none).set i staged.head?.join⟩

def inPlaceOf (start count : Nat) : Placement := ⟨min start s.size, s.spliced (min start s.size) count⟩

/-- So many inputs stand in the array in their order, from the index of the first one on. -/
def Fits (placement : Placement) (count : Nat) : Prop :=
  ∀ staged, staged.length = count → ∀ k < count, (placement.arrange staged)[placement.start + k]? = staged[k]?

theorem fits_whole (count : Nat) : whole.Fits count := by
  intro staged _ k _
  change staged[0 + k]? = staged[k]?
  rw [Nat.zero_add]

theorem fits_atEnd (count : Nat) : (atEnd s).Fits count := by
  intro staged _ k _
  change (s.items ++ staged)[s.items.length + k]? = staged[k]?
  rw [List.getElem?_append_right (Nat.le_add_right _ k), Nat.add_sub_cancel_left]

theorem fits_atFront (count : Nat) : (atFront s).Fits count := by
  rintro staged rfl k hk
  change (staged ++ s.items)[0 + k]? = staged[k]?
  rw [Nat.zero_add, List.getElem?_append_left hk]

theorem fits_atIndex (i : Nat) : (atIndex s i).Fits 1 := by
  intro staged hstaged k hk
  obtain ⟨item, rfl⟩ := List.length_eq_one_iff.mp hstaged
  obtain rfl : k = 0 := by omega
  have hlt : i < (s.items ++ List.replicate (i + 1 - s.size) none).length := by
    rw [List.length_append, List.length_replicate, Sequence.size]
    omega
  change ((s.items ++ List.replicate (i + 1 - s.size) none).set i item)[i]? = some item
  exact List.getElem?_set_self hlt

theorem fits_inPlaceOf (start removed count : Nat) : (inPlaceOf s start removed).Fits count := by
  rintro staged rfl k hk
  exact s.getElem?_spliced (Nat.min_le_right _ _) removed staged hk

end Placement

namespace SequenceType

variable {type : SequenceType} {placement : Placement} {inputs before : List Element} {cause e : Error}

/-- The sequence with the inputs in their places. -/
def put (type : SequenceType) (placement : Placement) (inputs : List Element) : Except Error Sequence := do
  type.commit (placement.arrange (← type.stageFrom placement.start inputs))

theorem put_eq_error (hbefore : ∀ e ∈ before, ∃ staged, type.stage e = .ok staged) {input : Element}
    (hinput : type.stage input = .error cause) (rest : List Element) :
    type.put placement (before ++ input :: rest) =
      .error (cause.under (elementPointer (placement.start + before.length))) := by
  rw [put, stageFrom_eq_error hbefore hinput]
  rfl

theorem exists_of_stageFrom_eq_error {start : Nat} (h : type.stageFrom start inputs = .error e) :
    ∃ before input rest cause, inputs = before ++ input :: rest ∧ (∀ e ∈ before, ∃ staged, type.stage e = .ok staged) ∧
      type.stage input = .error cause ∧ e = cause.under (elementPointer (start + before.length)) := by
  induction inputs generalizing start with
  | nil => cases h
  | cons input rest ih =>
    rw [stageFrom_cons] at h
    rcases bind_eq_error.mp h with hinput | ⟨staged, hstaged, h⟩
    · obtain ⟨cause, hcause, rfl⟩ := mapError_eq_error.mp hinput
      exact ⟨[], input, rest, cause, rfl, List.forall_mem_nil _, hcause, rfl⟩
    · rcases bind_eq_error.mp h with hrest | ⟨_, _, hpure⟩
      · obtain ⟨before, failing, after, cause, rfl, hbefore, hcause, rfl⟩ := ih hrest
        refine ⟨input :: before, failing, after, cause, rfl, ?_, hcause, ?_⟩
        · exact List.forall_mem_cons.mpr ⟨⟨staged, mapError_eq_ok.mp hstaged⟩, hbefore⟩
        · rw [List.length_cons, Nat.add_assoc, Nat.add_comm 1]
      · exact absurd hpure pure_ne_error

/-- The first input that is refused on its own is at fault, or else the whole is. -/
theorem exists_of_put_eq_error (h : type.put placement inputs = .error e) :
    (∃ before input rest cause, inputs = before ++ input :: rest ∧
      (∀ e ∈ before, ∃ staged, type.stage e = .ok staged) ∧ type.stage input = .error cause ∧
      e = cause.under (elementPointer (placement.start + before.length))) ∨ (Blueprint.sequence type).Owns e := by
  rcases bind_eq_error.mp h with hstage | ⟨staged, _, hcommit⟩
  · exact .inl (exists_of_stageFrom_eq_error hstage)
  · exact .inr (owns_of_commit hcommit)

/-- Makes of an item and its index what the position holds. -/
private def makeAt (element : Option ModelType) (item : Json × Nat) : Except Error Element :=
  (buildElement element item.1).mapError (Error.under (elementPointer item.2))

private theorem mapM_makeAt (type : SequenceType) (items : List Json) (start : Nat) :
    ((items.zipIdx start).mapM (makeAt type.element)).map (List.map some) =
      type.stageFrom start (items.map .plain) := by
  induction items generalizing start with
  | nil => rfl
  | cons v items ih =>
    rw [List.zipIdx_cons, List.mapM_cons, List.map_cons, stageFrom_cons, ← ih, makeAt, stage]
    cases (buildElement type.element v).mapError (Error.under (elementPointer start)) with
    | error cause => rfl
    | ok made => cases (items.zipIdx (start + 1)).mapM (makeAt type.element) <;> rfl

/-- Making a sequence is putting the items into an empty one. -/
theorem build_eq_put (type : SequenceType) (items : List Json) :
    type.build items = type.put .whole (items.map .plain) := by
  rw [put, Placement.whole, ← mapM_makeAt]
  obtain ⟨id, element, validator, options⟩ := type
  rw [build]
  change (items.zipIdx.mapM (makeAt element) >>= _) = _
  dsimp only
  cases items.zipIdx.mapM (makeAt element) <;> rfl

end SequenceType

namespace Sequence

variable {s : Sequence} {e : Error}

theorem push_eq_put (inputs : List Element) : s.push inputs = s.type.put (.atEnd s) inputs := rfl

theorem append_eq_put (input : Element) : s.append input = s.type.put (.atEnd s) [input] := s.append_eq_push input

theorem prepend_eq_put (inputs : List Element) : s.prepend inputs = s.type.put (.atFront s) inputs := rfl

theorem setAt_eq_put [Memory] {i : Nat} (hi : ¬ (s.size ≤ i ∧ Memory.growthLimit ≤ i)) (input : Element) :
    s.setAt i input = s.type.put (.atIndex s i) [input] := by
  rw [setAt, if_neg hi, SequenceType.put, Placement.atIndex, SequenceType.stageFrom_singleton]
  cases (s.type.stage input).mapError (·.under (elementPointer i)) <;> rfl

theorem spliceAt_eq_put (start count : Nat) (inputs : List Element) :
    (s.spliceAt start count inputs).map (·.2) = s.type.put (.inPlaceOf s start count) inputs := by
  rw [spliceAt_eq, SequenceType.put, Placement.inPlaceOf]
  dsimp only
  cases s.type.stageFrom (min start s.size) inputs with
  | error e => rfl
  | ok inserted =>
    change Except.map _ (Except.bind (s.type.commit _) _) = s.type.commit _
    cases s.type.commit (s.spliced (min start s.size) count inserted) <;> rfl

theorem owns_of_removeLast_eq_error (h : s.removeLast = .error e) : (Blueprint.sequence s.type).Owns e := by
  unfold removeLast at h
  split at h
  · cases h
  · rcases bind_eq_error.mp h with hcommit | ⟨_, _, hpure⟩
    · exact SequenceType.owns_of_commit hcommit
    · exact absurd hpure pure_ne_error

theorem owns_of_removeFirst_eq_error (h : s.removeFirst = .error e) : (Blueprint.sequence s.type).Owns e := by
  unfold removeFirst at h
  split at h
  · cases h
  · rcases bind_eq_error.mp h with hcommit | ⟨_, _, hpure⟩
    · exact SequenceType.owns_of_commit hcommit
    · exact absurd hpure pure_ne_error

section Updates

variable {α : Type} {i : Nat} {f : Model → Except Error (α × Model)}

theorem updateAt_eq_error {nested : Model} (hnested : s.get? i = some (.model nested)) {cause : Error}
    (h : f nested = .error cause) : s.updateAt i f = .error (cause.under (elementPointer i)) := by
  rw [updateAt, hnested]
  dsimp only
  rw [h]
  rfl

theorem exists_of_updateAt_eq_error (h : s.updateAt i f = .error e) :
    (∃ nested cause, s.get? i = some (.model nested) ∧ f nested = .error cause ∧
      e = cause.under (elementPointer i)) ∨ (Blueprint.sequence s.type).Owns e := by
  unfold updateAt at h
  split at h
  · rename_i nested hnested
    rcases bind_eq_error.mp h with hf | ⟨_, _, h⟩
    · obtain ⟨cause, hcause, rfl⟩ := mapError_eq_error.mp hf
      exact .inl ⟨nested, cause, hnested, hcause, rfl⟩
    · rcases bind_eq_error.mp h with hcommit | ⟨_, _, hpure⟩
      · exact .inr (SequenceType.owns_of_commit hcommit)
      · exact absurd hpure pure_ne_error
  · obtain rfl := Except.error.inj h
    exact .inr (Blueprint.owns_of_ne (by simp))

end Updates

end Sequence
end SchemaBound
