import SchemaBound.Proofs.Instance.Discipline

/-! Writes leave instances within the rules, whichever inputs they are given. Changes of nested instances do exactly
where what they leave may stand there. -/
namespace SchemaBound
open Success

variable {d : Discipline} {faithful : Bool} {α : Type}

/-- The instance is within the rules still, and its type is the same. -/
def Model.StaysWithin (d : Discipline) (m after : Model) : Prop := after.Obeys d ∧ after.type = m.type

/-- The instance is within the rules still, and its type is the same. -/
def Sequence.StaysWithin (d : Discipline) (s after : Sequence) : Prop := after.Obeys d ∧ after.type = s.type

namespace Model

variable {m after : Model} {name : String}

/-- What a field of the model holds may serve as an input. -/
theorem obeys_of_get? (ho : m.Obeys d) {v : FieldValue} (h : m.get? name = some v) : v.Obeys d := by
  rw [get?_eq, Option.bind_eq_some_iff] at h
  obtain ⟨⟨slot, field, current⟩, hslot, rfl⟩ := h
  exact (slotSuits_some.mp (ho.slotSuits hslot)).obeys

theorem obeys_of_model? (ho : m.Obeys d) {nested : Model} (h : m.model? name = some nested) : nested.Obeys d := by
  unfold model? at h
  split at h
  · rename_i found hfound
    obtain rfl := Option.some.inj h
    exact obeys_of_get? ho hfound
  · cases h

theorem obeys_of_sequence? (ho : m.Obeys d) {nested : Sequence} (h : m.sequence? name = some nested) :
    nested.Obeys d := by
  unfold sequence? at h
  split at h
  · rename_i found hfound
    obtain rfl := Option.some.inj h
    exact obeys_of_get? ho hfound
  · cases h

/-- A nested instance that is put into a slot is there after the commit, and has to be what the kind allows. -/
theorem suits_of_commit_set {slot : Nat} {field : Field} {current : Option FieldValue} {value : FieldValue}
    (hslot : m.slotOf? name = some (slot, field, current)) (hnested : ∀ raw, value ≠ .plain raw)
    (h : m.type.commit (m.values.set slot (some value)) = .ok after) (ho : after.Obeys d) :
    value.Suits d field.kind := by
  obtain ⟨hfield, hcurrent, _⟩ := slotOf?_eq_some hslot
  obtain ⟨canonical, _, rfl⟩ := ModelType.commit_eq_ok.mp h
  have hset : (m.values.set slot (some value))[slot]? = some (some value) :=
    List.getElem?_set_self (List.getElem?_eq_some_iff.mp hcurrent).1
  have hkept : (adoptFields canonical m.type.fields (m.values.set slot (some value)))[slot]? = some (some value) := by
    rw [getElem?_adoptFields canonical hfield, hset]
    cases value with
    | plain raw => exact absurd rfl (hnested raw)
    | model nested => rfl
    | sequence nested => rfl
  exact slotSuits_some.mp (forall₂_getElem (slotsObey_iff.mp (obeys_iff.mp ho).2) hfield hkept)

variable (hd : d.IsKept faithful)
include hd

/-- A slot that is given what the kind of its field allows. -/
theorem staysWithin_of_commit_set (ho : m.Obeys d) {slot : Nat} {field : Field} {current value : Option FieldValue}
    (hslot : m.slotOf? name = some (slot, field, current)) (hvalue : SlotSuits d field.kind value)
    (h : m.type.commit (m.values.set slot value) = .ok after) : m.StaysWithin d after := by
  obtain ⟨hadmits, hslots⟩ := obeys_iff.mp ho
  obtain ⟨hfield, _, _⟩ := slotOf?_eq_some hslot
  have hset := forall₂_set (slotsObey_iff.mp hslots) hfield hvalue
  exact ModelType.obeys_of_commit hd hadmits (slotsObey_iff.mpr hset) h

/-- The kind of a declared field is admitted. -/
theorem isAdmitted_of_slotOf? (ho : m.Obeys d) {slot : Nat} {field : Field} {current : Option FieldValue}
    (hslot : m.slotOf? name = some (slot, field, current)) : field.kind.IsAdmitted d :=
  hd.isAdmitted (obeys_iff.mp ho).1 field (List.mem_of_getElem? (slotOf?_eq_some hslot).1)

theorem staysWithin_of_set (ho : m.Obeys d) {input : FieldValue} (hinput : input.Obeys d)
    (h : m.set name input = .ok after) : m.StaysWithin d after := by
  obtain ⟨slot, field, current, staged, hslot, hstaged, hcommit⟩ := set_eq_ok.mp h
  have hadmitted := isAdmitted_of_slotOf? hd ho hslot
  refine staysWithin_of_commit_set hd ho hslot (slotSuits_some.mpr ?_) hcommit
  exact FieldKind.suits_of_stage hd hadmitted (ho.slotSuits hslot) hinput hstaged

theorem staysWithin_of_replace (ho : m.Obeys d) {input : FieldValue} (hinput : input.Obeys d)
    (h : m.replace name input = .ok after) : m.StaysWithin d after := by
  obtain ⟨slot, field, current, staged, hslot, hstaged, hcommit⟩ := replace_eq_ok.mp h
  have hadmitted := isAdmitted_of_slotOf? hd ho hslot
  refine staysWithin_of_commit_set hd ho hslot (slotSuits_some.mpr ?_) hcommit
  exact FieldKind.suits_of_stage hd hadmitted slotSuits_none hinput hstaged

theorem staysWithin_of_unset (ho : m.Obeys d) (h : m.unset name = .ok after) : m.StaysWithin d after := by
  obtain ⟨slot, field, current, hslot, hcommit⟩ := unset_eq_ok.mp h
  exact staysWithin_of_commit_set hd ho hslot slotSuits_none hcommit

theorem staysWithin_of_setData (ho : m.Obeys d) {data : Json} (h : m.setData data = .ok after) :
    m.StaysWithin d after := by
  unfold setData at h
  split at h
  · exact ModelType.obeys_of_build hd (obeys_iff.mp ho).1 h
  · cases h

theorem staysWithin_of_updateData (ho : m.Obeys d) {data : Json} (h : m.updateData data = .ok after) :
    m.StaysWithin d after := by
  unfold updateData at h
  split at h
  · exact obeys_of_merge hd ho h
  · cases h

/-- After a change of a nested model, the outer one is within the rules exactly if the changed one is and may stand
in the field. -/
theorem obeys_withModel_iff (ho : m.Obeys d) {f : Model → Except Error (α × Model)} {a : α}
    (h : m.withModel name f = .ok (a, after)) :
    ∃ nested changed declared, m.model? name = some nested ∧ nested.Obeys d ∧ f nested = .ok (a, changed) ∧
      after.type = m.type ∧ d.model nested.type declared ∧
      (after.Obeys d ↔ changed.Obeys d ∧ d.model changed.type declared) := by
  obtain ⟨slot, field, nested, changed, hslot, hchanged, hcommit⟩ := withModel_eq_ok.mp h
  obtain ⟨declared, hkind, hmodel, hobeys⟩ := FieldValue.suits_model.mp (slotSuits_some.mp (ho.slotSuits hslot))
  refine ⟨nested, changed, declared, model?_of_slotOf? hslot, hobeys, hchanged, ModelType.type_of_commit hcommit,
    hmodel, ?_⟩
  constructor
  · intro hafter
    obtain ⟨declared', hkind', hchangedModel, hchangedObeys⟩ :=
      FieldValue.suits_model.mp (suits_of_commit_set hslot (by simp) hcommit hafter)
    obtain rfl := FieldKind.object.inj (hkind.symm.trans hkind')
    exact ⟨hchangedObeys, hchangedModel⟩
  · rintro ⟨hchangedObeys, hchangedModel⟩
    have hsuits := FieldValue.suits_model.mpr ⟨declared, hkind, hchangedModel, hchangedObeys⟩
    exact (staysWithin_of_commit_set hd ho hslot (slotSuits_some.mpr hsuits) hcommit).1

/-- After a change of a nested sequence, the outer model is within the rules exactly if the changed sequence is and
may stand in the field. -/
theorem obeys_withSequence_iff (ho : m.Obeys d) {f : Sequence → Except Error (α × Sequence)} {a : α}
    (h : m.withSequence name f = .ok (a, after)) :
    ∃ nested changed declared, m.sequence? name = some nested ∧ nested.Obeys d ∧ f nested = .ok (a, changed) ∧
      after.type = m.type ∧ d.sequence nested.type declared ∧
      (after.Obeys d ↔ changed.Obeys d ∧ d.sequence changed.type declared) := by
  obtain ⟨slot, field, nested, changed, hslot, hchanged, hcommit⟩ := withSequence_eq_ok.mp h
  obtain ⟨declared, hkind, hsequence, hobeys⟩ :=
    FieldValue.suits_sequence.mp (slotSuits_some.mp (ho.slotSuits hslot))
  refine ⟨nested, changed, declared, sequence?_of_slotOf? hslot, hobeys, hchanged, ModelType.type_of_commit hcommit,
    hsequence, ?_⟩
  constructor
  · intro hafter
    obtain ⟨declared', hkind', hchangedSequence, hchangedObeys⟩ :=
      FieldValue.suits_sequence.mp (suits_of_commit_set hslot (by simp) hcommit hafter)
    obtain rfl := FieldKind.array.inj (hkind.symm.trans hkind')
    exact ⟨hchangedObeys, hchangedSequence⟩
  · rintro ⟨hchangedObeys, hchangedSequence⟩
    have hsuits := FieldValue.suits_sequence.mpr ⟨declared, hkind, hchangedSequence, hchangedObeys⟩
    exact (staysWithin_of_commit_set hd ho hslot (slotSuits_some.mpr hsuits) hcommit).1

/-- A change that leaves the nested model as it should be. -/
theorem staysWithin_of_withModel (ho : m.Obeys d) {f : Model → Except Error (α × Model)} {a : α}
    (hf : ∀ nested changed, m.model? name = some nested → nested.Obeys d → f nested = .ok (a, changed) →
      changed.Obeys d ∧ (faithful → changed.type.same nested.type))
    (h : m.withModel name f = .ok (a, after)) : m.StaysWithin d after := by
  obtain ⟨nested, changed, declared, hnested, hobeys, hchanged, htype, hmodel, hiff⟩ := obeys_withModel_iff hd ho h
  obtain ⟨hchangedObeys, hsame⟩ := hf nested changed hnested hobeys hchanged
  exact ⟨hiff.mpr ⟨hchangedObeys, hd.changedModel hmodel hsame⟩, htype⟩

/-- A change that leaves the nested sequence as it should be. -/
theorem staysWithin_of_withSequence (ho : m.Obeys d) {f : Sequence → Except Error (α × Sequence)} {a : α}
    (hf : ∀ nested changed, m.sequence? name = some nested → nested.Obeys d → f nested = .ok (a, changed) →
      changed.Obeys d ∧ (faithful → changed.type.same nested.type))
    (h : m.withSequence name f = .ok (a, after)) : m.StaysWithin d after := by
  obtain ⟨nested, changed, declared, hnested, hobeys, hchanged, htype, hsequence, hiff⟩ :=
    obeys_withSequence_iff hd ho h
  obtain ⟨hchangedObeys, hsame⟩ := hf nested changed hnested hobeys hchanged
  exact ⟨hiff.mpr ⟨hchangedObeys, hd.changedSequence hsequence hsame⟩, htype⟩

end Model

namespace Sequence

variable {s after : Sequence}

theorem suits_of_get? (ho : s.Obeys d) {i : Nat} {e : Element} (h : s.get? i = some e) :
    e.Suits d s.type.element :=
  ho.suits (List.mem_of_getElem? (Option.join_eq_some_iff.mp h)) rfl

variable (hd : d.IsKept faithful) (ho : s.Obeys d)
include hd ho

/-- Staged elements that were there, or are what the element type allows. -/
theorem staysWithin_of_items {staged : List (Option Element)}
    (hstaged : ∀ item ∈ staged, item ∈ s.items ∨ ∀ e, item = some e → e.Suits d s.type.element)
    (h : s.type.commit staged = .ok after) : s.StaysWithin d after := by
  refine SequenceType.obeys_of_commit hd (obeys_iff.mp ho).1 (elementsObey_iff.mpr fun item hitem e he => ?_) h
  rcases hstaged item hitem with hold | hnew
  · exact ho.suits hold he
  · exact hnew e he

theorem staysWithin_of_append {input : Element} (hinput : input.Obeys d) (h : s.append input = .ok after) :
    s.StaysWithin d after := by
  obtain ⟨e, he, hcommit⟩ := append_eq_ok.mp h
  refine staysWithin_of_items hd ho (fun item hitem => ?_) hcommit
  rcases List.mem_append.mp hitem with hold | hnew
  · exact Or.inl hold
  · obtain rfl := List.mem_singleton.mp hnew
    refine Or.inr fun e' he' => ?_
    obtain rfl := Option.some.inj he'
    exact SequenceType.suits_of_stage hd (obeys_iff.mp ho).1 hinput he

theorem staysWithin_of_push {inputs : List Element} (hinputs : ∀ input ∈ inputs, input.Obeys d)
    (h : s.push inputs = .ok after) : s.StaysWithin d after := by
  obtain ⟨staged, hstaged, hcommit⟩ := push_eq_ok.mp h
  refine staysWithin_of_items hd ho (fun item hitem => ?_) hcommit
  rcases List.mem_append.mp hitem with hold | hnew
  · exact Or.inl hold
  · exact Or.inr (SequenceType.suits_of_stageFrom hd (obeys_iff.mp ho).1 hinputs hstaged item hnew)

theorem staysWithin_of_prepend {inputs : List Element} (hinputs : ∀ input ∈ inputs, input.Obeys d)
    (h : s.prepend inputs = .ok after) : s.StaysWithin d after := by
  obtain ⟨staged, hstaged, hcommit⟩ := prepend_eq_ok.mp h
  refine staysWithin_of_items hd ho (fun item hitem => ?_) hcommit
  rcases List.mem_append.mp hitem with hnew | hold
  · exact Or.inr (SequenceType.suits_of_stageFrom hd (obeys_iff.mp ho).1 hinputs hstaged item hnew)
  · exact Or.inl hold

theorem staysWithin_of_removeLast {removed : Option Element} (h : s.removeLast = .ok (removed, after)) :
    s.StaysWithin d after := by
  rcases removeLast_eq_ok.mp h with ⟨_, _, rfl⟩ | ⟨_, hcommit⟩
  · exact ⟨ho, rfl⟩
  · exact staysWithin_of_items hd ho (fun item hitem => Or.inl (List.dropLast_subset _ hitem)) hcommit

theorem staysWithin_of_removeFirst {removed : Option Element} (h : s.removeFirst = .ok (removed, after)) :
    s.StaysWithin d after := by
  rcases removeFirst_eq_ok.mp h with ⟨_, _, rfl⟩ | ⟨rest, hitems, hcommit⟩
  · exact ⟨ho, rfl⟩
  · refine staysWithin_of_items hd ho (fun item hitem => Or.inl ?_) hcommit
    rw [hitems]
    exact List.mem_cons_of_mem _ hitem

theorem staysWithin_of_setAt [Memory] {i : Nat} {input : Element} (hinput : input.Obeys d)
    (h : s.setAt i input = .ok after) : s.StaysWithin d after := by
  obtain ⟨_, e, he, hcommit⟩ := setAt_eq_ok.mp h
  refine staysWithin_of_items hd ho (fun item hitem => ?_) hcommit
  rcases List.mem_or_eq_of_mem_set hitem with hitem | rfl
  · rcases List.mem_append.mp hitem with hold | hhole
    · exact Or.inl hold
    · obtain ⟨_, rfl⟩ := List.mem_replicate.mp hhole
      refine Or.inr fun e he => ?_
      cases he
  · refine Or.inr fun e' he' => ?_
    obtain rfl := Option.some.inj he'
    exact SequenceType.suits_of_stage hd (obeys_iff.mp ho).1 hinput he

theorem staysWithin_of_spliceAt {start count : Nat} {inputs : List Element}
    (hinputs : ∀ input ∈ inputs, input.Obeys d) {removed : List (Option Element)}
    (h : s.spliceAt start count inputs = .ok (removed, after)) : s.StaysWithin d after := by
  obtain ⟨_, inserted, hinserted, hcommit⟩ := spliceAt_eq_ok.mp h
  refine staysWithin_of_items hd ho (fun item hitem => ?_) hcommit
  rcases List.mem_append.mp hitem with hitem | hitem
  · rcases List.mem_append.mp hitem with hitem | hitem
    · exact Or.inl (List.mem_of_mem_take hitem)
    · exact Or.inr (SequenceType.suits_of_stageFrom hd (obeys_iff.mp ho).1 hinputs hinserted item hitem)
  · exact Or.inl (List.mem_of_mem_drop (List.mem_of_mem_drop hitem))

/-- After a change of an element, the sequence is within the rules exactly if the changed one is and may stand
there. -/
theorem obeys_updateAt_iff {i : Nat} {f : Model → Except Error (α × Model)} {a : α}
    (h : s.updateAt i f = .ok (a, after)) :
    ∃ nested changed declared, s.get? i = some (.model nested) ∧ nested.Obeys d ∧ f nested = .ok (a, changed) ∧
      after.type = s.type ∧ d.model nested.type declared ∧
      (after.Obeys d ↔ changed.Obeys d ∧ d.model changed.type declared) := by
  obtain ⟨nested, changed, hnested, hchanged, hcommit⟩ := updateAt_eq_ok.mp h
  obtain ⟨declared, helement, hmodel, hobeys⟩ := Element.suits_model.mp (suits_of_get? ho hnested)
  refine ⟨nested, changed, declared, hnested, hobeys, hchanged, SequenceType.type_of_commit hcommit, hmodel, ?_⟩
  constructor
  · intro hafter
    obtain ⟨canonical, _, rfl⟩ := SequenceType.commit_eq_ok.mp hcommit
    have hlt := (List.getElem?_eq_some_iff.mp (Option.join_eq_some_iff.mp hnested)).1
    have hkept : (adoptElements (canonical.items?.getD []) (s.items.set i (some (.model changed))))[i]? =
        some (some (.model changed)) := by
      rw [getElem?_adoptElements, List.getElem?_set_self hlt]
      rfl
    obtain ⟨declared', helement', hchangedModel, hchangedObeys⟩ :=
      Element.suits_model.mp (hafter.suits (List.mem_of_getElem? hkept) rfl)
    obtain rfl := Option.some.inj (helement.symm.trans helement')
    exact ⟨hchangedObeys, hchangedModel⟩
  · rintro ⟨hchangedObeys, hchangedModel⟩
    refine (staysWithin_of_items hd ho (fun item hitem => ?_) hcommit).1
    rcases List.mem_or_eq_of_mem_set hitem with hitem | rfl
    · exact Or.inl hitem
    · refine Or.inr fun e he => ?_
      obtain rfl := Option.some.inj he
      exact Element.suits_model.mpr ⟨declared, helement, hchangedModel, hchangedObeys⟩

theorem staysWithin_of_updateAt {i : Nat} {f : Model → Except Error (α × Model)} {a : α}
    (hf : ∀ nested changed, s.get? i = some (.model nested) → nested.Obeys d → f nested = .ok (a, changed) →
      changed.Obeys d ∧ (faithful → changed.type.same nested.type))
    (h : s.updateAt i f = .ok (a, after)) : s.StaysWithin d after := by
  obtain ⟨nested, changed, declared, hnested, hobeys, hchanged, htype, hmodel, hiff⟩ := obeys_updateAt_iff hd ho h
  obtain ⟨hchangedObeys, hsame⟩ := hf nested changed hnested hobeys hchanged
  exact ⟨hiff.mpr ⟨hchangedObeys, hd.changedModel hmodel hsame⟩, htype⟩

end Sequence

section Edits

variable {pointer : String}

theorem Model.StaysWithin.changed {m after : Model} (h : m.StaysWithin d after) :
    after.Obeys d ∧ (faithful → after.type.same m.type) :=
  ⟨h.1, fun _ => ModelType.same_iff.mpr (congrArg ModelType.id h.2)⟩

theorem Sequence.StaysWithin.changed {s after : Sequence} (h : s.StaysWithin d after) :
    after.Obeys d ∧ (faithful → after.type.same s.type) :=
  ⟨h.1, fun _ => SequenceType.same_iff.mpr (congrArg SequenceType.id h.2)⟩

variable [Memory]

/-- An edit keeps every level on its way within the rules. -/
theorem Edit.carries_staysWithin (hd : d.IsKept faithful) (change : Edit) : change.Carries
    (fun _ m after => m.Obeys d → m.StaysWithin d after) (fun _ s after => s.Obeys d → s.StaysWithin d after) where
  set _ h ho := Model.staysWithin_of_set hd ho (FieldValue.obeys_plain _) h
  unset _ h ho := Model.staysWithin_of_unset hd ho h
  assign _ _ h ho := Sequence.staysWithin_of_setAt hd ho (Element.obeys_plain _) h
  remove _ _ _ h ho := Sequence.staysWithin_of_spliceAt hd ho (by simp) h
  withModel h hnested ho := by
    refine Model.staysWithin_of_withModel hd ho (fun nested changed _ hobeys hchanged => ?_) h
    exact (hnested nested changed hchanged hobeys).changed
  withSequence h hnested ho := by
    refine Model.staysWithin_of_withSequence hd ho (fun nested changed _ hobeys hchanged => ?_) h
    exact (hnested nested changed hchanged hobeys).changed
  updateAt _ h hnested ho := by
    refine Sequence.staysWithin_of_updateAt hd ho (fun nested changed _ hobeys hchanged => ?_) h
    exact (hnested nested changed hchanged hobeys).changed

theorem Model.staysWithin_of_setPointer (hd : d.IsKept faithful) {m after : Model} (ho : m.Obeys d) {v : Json}
    (h : m.setPointer pointer v = .ok after) : m.StaysWithin d after := by
  obtain ⟨tokens, _, hedit⟩ := bind_eq_ok.mp h
  exact (Edit.carries_staysWithin hd _).model hedit ho

theorem Model.staysWithin_of_unsetPointer (hd : d.IsKept faithful) {m after : Model} (ho : m.Obeys d)
    (h : m.unsetPointer pointer = .ok after) : m.StaysWithin d after := by
  obtain ⟨tokens, _, hedit⟩ := bind_eq_ok.mp h
  exact (Edit.carries_staysWithin hd _).model hedit ho

end Edits
end SchemaBound
