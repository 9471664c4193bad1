import SchemaBound.Proofs.Instance.DisciplinedWrites

/-! Instances whose slots are of their declared kinds, at every depth: plain values where a kind keeps them plain,
and elsewhere instances of exactly the declared type. -/
namespace SchemaBound
open Json Success

section Typed

variable (judge : Json → Json → List Violation)

/-- The type is one of those that an engine with this judge makes. -/
def ModelType.IsMade (type : ModelType) : Prop := ∃ options, type.IsChecked judge options

/-- The type is one of those that an engine with this judge makes. -/
def SequenceType.IsMade (type : SequenceType) : Prop := ∃ options, type.IsChecked judge options

/-- The type is one of those that an engine with this judge makes. -/
def Blueprint.IsMade : Blueprint → Prop
  | .model type => type.IsMade judge
  | .sequence type => type.IsMade judge

mutual
/-- One slot for each declared field, which holds what the field's kind asks for. -/
def Model.IsTyped : Model → Prop
  | ⟨type, values⟩ => type.IsMade judge ∧ slotsAreTyped type.fields values

def slotsAreTyped : List Field → List (Option FieldValue) → Prop
  | [], [] => True
  | _ :: fields, none :: values => slotsAreTyped fields values
  | field :: fields, some v :: values => v.IsOfKind field.kind ∧ slotsAreTyped fields values
  | _, _ => False

/-- A plain value is one that the kind keeps plain. An instance is of exactly the type that the kind names, and its
own slots are of their kinds. -/
def FieldValue.IsOfKind : FieldValue → FieldKind → Prop
  | .plain v, kind => kind.keepsPlain v
  | .model m, .object type => m.type.same type ∧ m.IsTyped
  | .sequence s, .array type => s.type.same type ∧ s.IsTyped
  | _, _ => False

/-- Each element that is an object is an instance of the element type, if there is one. -/
def Sequence.IsTyped : Sequence → Prop
  | ⟨type, items⟩ => type.IsMade judge ∧ elementsAreTyped type.element items

def elementsAreTyped : Option ModelType → List (Option Element) → Prop
  | _, [] => True
  | element, none :: items => elementsAreTyped element items
  | element, some e :: items => e.IsOfType element ∧ elementsAreTyped element items

def Element.IsOfType : Element → Option ModelType → Prop
  | .plain v, element => keepsPlainElement element v
  | .model m, some type => m.type.same type ∧ m.IsTyped
  | .model _, none => False
end

/-- The instance has slots of the declared kinds. -/
def Instance.IsTyped : Instance → Prop
  | .model m => m.IsTyped judge
  | .sequence s => s.IsTyped judge

/-- Plain values stand where the declared kind keeps values plain, and instances are of exactly the declared type. -/
def Discipline.typed : Discipline where
  admits := Blueprint.IsMade judge
  plain kind v := kind.keepsPlain v
  plainElement element v := keepsPlainElement element v
  model found declared := found.same declared
  sequence found declared := found.same declared

end Typed

variable {judge : Json → Json → List Violation}

section Rules

mutual
/-- Slots of the declared kinds are what the rules for exactly the declared types ask for. -/
theorem Model.obeys_typed_iff : ∀ {m : Model}, m.Obeys (.typed judge) ↔ m.IsTyped judge
  | ⟨type, values⟩ => by
    rw [Model.Obeys, Model.IsTyped]
    exact and_congr_right fun _ => slotsObey_typed_iff

theorem slotsObey_typed_iff : ∀ {fields : List Field} {values : List (Option FieldValue)},
    slotsObey (.typed judge) fields values ↔ slotsAreTyped judge fields values
  | [], [] => Iff.rfl
  | _ :: fields, none :: values => by
    rw [slotsObey, slotsAreTyped]
    exact slotsObey_typed_iff
  | field :: fields, some v :: values => by
    rw [slotsObey, slotsAreTyped]
    exact and_congr FieldValue.suits_typed_iff slotsObey_typed_iff
  | [], _ :: _ => by simp [slotsObey, slotsAreTyped]
  | _ :: _, [] => by simp [slotsObey, slotsAreTyped]

theorem FieldValue.suits_typed_iff : ∀ {v : FieldValue} {kind : FieldKind},
    v.Suits (.typed judge) kind ↔ v.IsOfKind judge kind
  | .plain v, kind => by
    rw [FieldValue.Suits, FieldValue.IsOfKind]
    rfl
  | .model m, .object type => by
    rw [FieldValue.Suits, FieldValue.IsOfKind]
    exact and_congr_right fun _ => Model.obeys_typed_iff
  | .sequence s, .array type => by
    rw [FieldValue.Suits, FieldValue.IsOfKind]
    exact and_congr_right fun _ => Sequence.obeys_typed_iff
  | .model m, .array _ | .model m, .scalar | .model m, .union => by simp [FieldValue.Suits, FieldValue.IsOfKind]
  | .sequence s, .object _ | .sequence s, .scalar | .sequence s, .union => by
    simp [FieldValue.Suits, FieldValue.IsOfKind]

theorem Sequence.obeys_typed_iff : ∀ {s : Sequence}, s.Obeys (.typed judge) ↔ s.IsTyped judge
  | ⟨type, items⟩ => by
    rw [Sequence.Obeys, Sequence.IsTyped]
    exact and_congr_right fun _ => elementsObey_typed_iff

theorem elementsObey_typed_iff : ∀ {element : Option ModelType} {items : List (Option Element)},
    elementsObey (.typed judge) element items ↔ elementsAreTyped judge element items
  | _, [] => by rw [elementsObey, elementsAreTyped]
  | element, none :: items => by
    rw [elementsObey, elementsAreTyped]
    exact elementsObey_typed_iff
  | element, some e :: items => by
    rw [elementsObey, elementsAreTyped]
    exact and_congr Element.suits_typed_iff elementsObey_typed_iff

theorem Element.suits_typed_iff : ∀ {e : Element} {element : Option ModelType},
    e.Suits (.typed judge) element ↔ e.IsOfType judge element
  | .plain v, element => by
    rw [Element.Suits, Element.IsOfType]
    rfl
  | .model m, some type => by
    rw [Element.Suits, Element.IsOfType]
    exact and_congr_right fun _ => Model.obeys_typed_iff
  | .model m, none => by simp [Element.Suits, Element.IsOfType]
end

theorem Instance.obeys_typed_iff {i : Instance} : i.Obeys (.typed judge) ↔ i.IsTyped judge := by
  cases i with
  | model m => exact Model.obeys_typed_iff
  | sequence s => exact Sequence.obeys_typed_iff

end Rules

section Kept

theorem Blueprint.IsMade.held {outer inner : Blueprint} (h : outer.IsMade judge) (hheld : inner ∈ outer.held) :
    inner.IsMade judge := by
  have hchecked : ∃ options, outer.IsChecked judge options := by
    cases outer with
    | model type => exact h
    | sequence type => exact h
  obtain ⟨options, hchecked⟩ := hchecked
  have hinner := hchecked.throughout inner (.single hheld)
  cases inner with
  | model type => exact ⟨options, hinner⟩
  | sequence type => exact ⟨options, hinner⟩

/-- A canonical object has values of the kinds that the staged object had. -/
theorem slotsObey_typed_adoptFields {type : ModelType} (hm : type.IsMade judge) {staged : List (Option FieldValue)}
    (hs : slotsObey (.typed judge) type.fields staged) {canonical : Json}
    (hcheck : type.check (.obj (snapshot type.fields staged)) = .ok canonical) :
    slotsObey (.typed judge) type.fields (adoptFields canonical type.fields staged) := by
  obtain ⟨options, hc⟩ := hm
  obtain ⟨reading, hr⟩ := hc.exists_readsBy
  have hcanonical := hr.canonical hcheck
  have hnames : (type.fields.map Field.name).Nodup := (ModelType.isChecked_iff.mp hc).2.2.1
  refine slotsObey_iff.mpr (forall₂_adoptFields hr.conversion (fun field v reading' hr' hslot => ?_) type.fields staged
    (fun name v hv => hcanonical ▸ get_mapText_snapshot hnames hv) (slotsObey_iff.mp hs))
  rw [slotSuits_some, FieldValue.Suits] at hslot ⊢
  exact (keepsPlain_mapText hr' _ _).trans hslot

/-- A canonical array has elements like those that the staged array had. -/
theorem elementsObey_typed_adoptElements {type : SequenceType} (hm : type.IsMade judge)
    {staged : List (Option Element)} (hs : elementsObey (.typed judge) type.element staged) {canonical : Json}
    (hcheck : type.check (.arr (listing staged)) = .ok canonical) :
    elementsObey (.typed judge) type.element (adoptElements (canonical.items?.getD []) staged) := by
  obtain ⟨options, hc⟩ := hm
  obtain ⟨reading, hr⟩ := hc.exists_readsBy
  have hcanonical : canonical.items?.getD [] = mapTextItems reading 0 (listing staged) := by
    rw [hr.canonical hcheck, mapText]
    rfl
  rw [hcanonical]
  refine elementsObey_iff.mpr (forall_adoptElements hr.conversion (fun v reading' hr' hitem e he => ?_) 0 staged
    (elementsObey_iff.mp hs))
  obtain rfl := Option.some.inj he
  have hv := hitem _ rfl
  rw [Element.Suits] at hv ⊢
  exact (keepsPlainElement_mapText hr' _ _).trans hv

/-- Engines with this judge keep to these rules if every change of a nested instance leaves one of the same type. -/
theorem Discipline.isKept_typed (judge : Json → Json → List Violation) : (typed judge).IsKept true where
  held := Blueprint.IsMade.held
  plain := id
  plainElement := id
  model := id
  sequence := id
  changedModel hbefore hsame := by
    have hid := ModelType.same_iff.mp (hsame rfl)
    exact ModelType.same_iff.mpr (hid.trans (ModelType.same_iff.mp hbefore))
  changedSequence hbefore hsame := by
    have hid := SequenceType.same_iff.mp (hsame rfl)
    exact SequenceType.same_iff.mpr (hid.trans (SequenceType.same_iff.mp hbefore))
  fields ha hs hcheck := slotsObey_typed_adoptFields ha hs hcheck
  elements ha hs hcheck := elementsObey_typed_adoptElements ha hs hcheck

end Kept

theorem ModelType.isTyped_empty {type : ModelType} (h : type.IsMade judge) : type.empty.IsTyped judge :=
  Model.obeys_typed_iff.mp (obeys_empty h)

theorem SequenceType.isTyped_empty {type : SequenceType} (h : type.IsMade judge) : type.empty.IsTyped judge :=
  Sequence.obeys_typed_iff.mp (obeys_empty h)

theorem Blueprint.isTyped_of_create {type : Blueprint} (hm : type.IsMade judge) {v : Json} {made : Instance}
    (h : type.create v = .ok made) : made.IsTyped judge :=
  Instance.obeys_typed_iff.mp (Blueprint.obeys_of_create (Discipline.isKept_typed judge) hm h)

section Changes

variable {α : Type} {a : α}

/-- Two instances of the same type may stand in the same places. -/
theorem ModelType.same_congr {before after declared : ModelType} (h : before.same declared) :
    after.same declared ↔ after.same before := by
  simp only [same_iff, same_iff.mp h]

/-- Two instances of the same type may stand in the same places. -/
theorem SequenceType.same_congr {before after declared : SequenceType} (h : before.same declared) :
    after.same declared ↔ after.same before := by
  simp only [same_iff, same_iff.mp h]

/-- After a change of a nested model, the slots are of their kinds exactly if the change left a model of the same
type with slots of their kinds. -/
theorem Model.isTyped_withModel_iff {m after : Model} {name : String} (ht : m.IsTyped judge)
    {f : Model → Except Error (α × Model)} (h : m.withModel name f = .ok (a, after)) :
    ∃ nested changed, m.model? name = some nested ∧ f nested = .ok (a, changed) ∧
      (after.IsTyped judge ↔ changed.IsTyped judge ∧ changed.type.same nested.type) := by
  obtain ⟨nested, changed, declared, hnested, _, hchanged, _, hsame, hiff⟩ :=
    obeys_withModel_iff (Discipline.isKept_typed judge) (obeys_typed_iff.mpr ht) h
  refine ⟨nested, changed, hnested, hchanged, ?_⟩
  rw [← ModelType.same_congr hsame, ← obeys_typed_iff, ← obeys_typed_iff]
  exact hiff

/-- After a change of a nested sequence, the slots are of their kinds exactly if the change left a sequence of the
same type with elements of their type. -/
theorem Model.isTyped_withSequence_iff {m after : Model} {name : String} (ht : m.IsTyped judge)
    {f : Sequence → Except Error (α × Sequence)} (h : m.withSequence name f = .ok (a, after)) :
    ∃ nested changed, m.sequence? name = some nested ∧ f nested = .ok (a, changed) ∧
      (after.IsTyped judge ↔ changed.IsTyped judge ∧ changed.type.same nested.type) := by
  obtain ⟨nested, changed, declared, hnested, _, hchanged, _, hsame, hiff⟩ :=
    obeys_withSequence_iff (Discipline.isKept_typed judge) (obeys_typed_iff.mpr ht) h
  refine ⟨nested, changed, hnested, hchanged, ?_⟩
  rw [← SequenceType.same_congr hsame, ← obeys_typed_iff, ← Sequence.obeys_typed_iff]
  exact hiff

/-- After a change of an element, the elements are of their type exactly if the change left a model of the same type
with slots of their kinds. -/
theorem Sequence.isTyped_updateAt_iff {s after : Sequence} {i : Nat} (ht : s.IsTyped judge)
    {f : Model → Except Error (α × Model)} (h : s.updateAt i f = .ok (a, after)) :
    ∃ nested changed, s.get? i = some (.model nested) ∧ f nested = .ok (a, changed) ∧
      (after.IsTyped judge ↔ changed.IsTyped judge ∧ changed.type.same nested.type) := by
  obtain ⟨nested, changed, declared, hnested, _, hchanged, _, hsame, hiff⟩ :=
    obeys_updateAt_iff (Discipline.isKept_typed judge) (obeys_typed_iff.mpr ht) h
  refine ⟨nested, changed, hnested, hchanged, ?_⟩
  rw [← ModelType.same_congr hsame, ← obeys_typed_iff, ← Model.obeys_typed_iff]
  exact hiff

end Changes
end SchemaBound
