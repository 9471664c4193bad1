import SchemaBound.Blueprint.Path
import SchemaBound.Proofs.Instance.PlainWrites

/-! Rules for the types of instances and for what their slots hold, at every depth, and that values which are read
into an instance leave it within the rules. -/
namespace SchemaBound
open Json Success

/-- Rules for the types of instances and for what their slots hold. -/
structure Discipline where
  /-- The types that instances may be of. -/
  admits : Blueprint → Prop
  /-- The plain values that a field of a kind may hold. -/
  plain : FieldKind → Json → Prop
  /-- The plain values that a position may hold, given the type of those elements that are objects. -/
  plainElement : Option ModelType → Json → Prop
  /-- An instance of the first type may stand where the second one is declared. -/
  model : ModelType → ModelType → Prop
  /-- An instance of the first type may stand where the second one is declared. -/
  sequence : SequenceType → SequenceType → Prop

section Obeys

variable (d : Discipline)

mutual
/-- The type is admitted, and there is one slot for each declared field, which holds what the field's kind allows. -/
def Model.Obeys : Model → Prop
  | ⟨type, values⟩ => d.admits (.model type) ∧ slotsObey type.fields values

def slotsObey : List Field → List (Option FieldValue) → Prop
  | [], [] => True
  | _ :: fields, none :: values => slotsObey fields values
  | field :: fields, some v :: values => v.Suits field.kind ∧ slotsObey fields values
  | _, _ => False

/-- Models stand in fields for objects and sequences in those for arrays only. -/
def FieldValue.Suits : FieldValue → FieldKind → Prop
  | .plain v, kind => d.plain kind v
  | .model m, .object type => d.model m.type type ∧ m.Obeys
  | .sequence s, .array type => d.sequence s.type type ∧ s.Obeys
  | _, _ => False

def Sequence.Obeys : Sequence → Prop
  | ⟨type, items⟩ => d.admits (.sequence type) ∧ elementsObey type.element items

def elementsObey : Option ModelType → List (Option Element) → Prop
  | _, [] => True
  | element, none :: items => elementsObey element items
  | element, some e :: items => e.Suits element ∧ elementsObey element items

/-- Models stand only where there is a type for elements that are objects. -/
def Element.Suits : Element → Option ModelType → Prop
  | .plain v, element => d.plainElement element v
  | .model m, some type => d.model m.type type ∧ m.Obeys
  | .model _, none => False
end

def Instance.Obeys : Instance → Prop
  | .model m => m.Obeys d
  | .sequence s => s.Obeys d

/-- What a slot may hold if its field is of the kind. -/
def SlotSuits (kind : FieldKind) (slot : Option FieldValue) : Prop := ∀ v, slot = some v → v.Suits d kind

/-- The type of the instances that the kind holds, if it holds any. -/
def FieldKind.IsAdmitted (kind : FieldKind) : Prop := ∀ inner, kind.held? = some inner → d.admits inner

/-- The type of the elements that are objects, if there is one. -/
def elementIsAdmitted (element : Option ModelType) : Prop := ∀ type, element = some type → d.admits (.model type)

/-- What the operations need to keep to the rules. Changes of nested instances may be bound to leave instances of the
same type. -/
structure Discipline.IsKept (faithful : Bool) : Prop where
  held : ∀ {outer inner : Blueprint}, d.admits outer → inner ∈ outer.held → d.admits inner
  plain : ∀ {kind : FieldKind} {v : Json}, kind.keepsPlain v → d.plain kind v
  plainElement : ∀ {element : Option ModelType} {v : Json}, keepsPlainElement element v → d.plainElement element v
  model : ∀ {found declared : ModelType}, found.same declared → d.model found declared
  sequence : ∀ {found declared : SequenceType}, found.same declared → d.sequence found declared
  changedModel : ∀ {before after declared : ModelType}, d.model before declared → (faithful → after.same before) →
    d.model after declared
  changedSequence : ∀ {before after declared : SequenceType}, d.sequence before declared →
    (faithful → after.same before) → d.sequence after declared
  fields : ∀ {type : ModelType} {staged : List (Option FieldValue)} {canonical : Json}, d.admits (.model type) →
    slotsObey d type.fields staged → type.check (.obj (snapshot type.fields staged)) = .ok canonical →
    slotsObey d type.fields (adoptFields canonical type.fields staged)
  elements : ∀ {type : SequenceType} {staged : List (Option Element)} {canonical : Json}, d.admits (.sequence type) →
    elementsObey d type.element staged → type.check (.arr (listing staged)) = .ok canonical →
    elementsObey d type.element (adoptElements (canonical.items?.getD []) staged)

end Obeys

variable {d : Discipline}

theorem ModelType.same_iff {type other : ModelType} : type.same other ↔ type.id = other.id := by
  rw [same, decide_eq_true_iff]

theorem SequenceType.same_iff {type other : SequenceType} : type.same other ↔ type.id = other.id := by
  rw [same, decide_eq_true_iff]

theorem Model.obeys_iff {m : Model} : m.Obeys d ↔ d.admits (.model m.type) ∧ slotsObey d m.type.fields m.values := by
  obtain ⟨type, values⟩ := m
  rw [Obeys]

theorem Sequence.obeys_iff {s : Sequence} :
    s.Obeys d ↔ d.admits (.sequence s.type) ∧ elementsObey d s.type.element s.items := by
  obtain ⟨type, items⟩ := s
  rw [Obeys]

theorem slotSuits_none {kind : FieldKind} : SlotSuits d kind none := by
  intro v h
  cases h

theorem slotSuits_some {kind : FieldKind} {v : FieldValue} : SlotSuits d kind (some v) ↔ v.Suits d kind := by
  constructor
  · intro h
    exact h v rfl
  · intro h w hw
    obtain rfl := Option.some.inj hw
    exact h

theorem FieldValue.suits_model {m : Model} {kind : FieldKind} :
    (FieldValue.model m).Suits d kind ↔ ∃ type, kind = .object type ∧ d.model m.type type ∧ m.Obeys d := by
  cases kind with
  | object type => simp [Suits]
  | _ => simp [Suits]

theorem FieldValue.suits_sequence {s : Sequence} {kind : FieldKind} :
    (FieldValue.sequence s).Suits d kind ↔ ∃ type, kind = .array type ∧ d.sequence s.type type ∧ s.Obeys d := by
  cases kind with
  | array type => simp [Suits]
  | _ => simp [Suits]

theorem Element.suits_model {m : Model} {element : Option ModelType} :
    (Element.model m).Suits d element ↔ ∃ type, element = some type ∧ d.model m.type type ∧ m.Obeys d := by
  cases element <;> simp [Suits]

theorem slotsObey_iff {fields : List Field} {values : List (Option FieldValue)} :
    slotsObey d fields values ↔ List.Forall₂ (fun field slot => SlotSuits d field.kind slot) fields values := by
  induction fields generalizing values with
  | nil => cases values <;> simp [slotsObey]
  | cons field fields ih =>
    match values with
    | [] => simp [slotsObey]
    | none :: values =>
      rw [slotsObey, List.forall₂_cons, ih]
      exact ⟨fun h => ⟨slotSuits_none, h⟩, fun h => h.2⟩
    | some v :: values => rw [slotsObey, List.forall₂_cons, ih, slotSuits_some]

theorem elementsObey_iff {element : Option ModelType} {items : List (Option Element)} :
    elementsObey d element items ↔ ∀ item ∈ items, ∀ e, item = some e → e.Suits d element := by
  induction items with
  | nil => simp [elementsObey]
  | cons item items ih =>
    cases item with
    | none => simp [elementsObey, ih]
    | some e => simp [elementsObey, ih]

theorem Model.Obeys.isAligned {m : Model} (h : m.Obeys d) : m.IsAligned :=
  (slotsObey_iff.mp (obeys_iff.mp h).2).length_eq.symm

/-- What a slot holds is what the kind of its field allows. -/
theorem Model.Obeys.slotSuits {m : Model} (h : m.Obeys d) {name : String} {slot : Nat} {field : Field}
    {current : Option FieldValue} (hslot : m.slotOf? name = some (slot, field, current)) :
    SlotSuits d field.kind current := by
  obtain ⟨hfield, hcurrent, _⟩ := slotOf?_eq_some hslot
  exact forall₂_getElem (slotsObey_iff.mp (obeys_iff.mp h).2) hfield hcurrent

/-- An element is what the element type allows. -/
theorem Sequence.Obeys.suits {s : Sequence} (h : s.Obeys d) {item : Option Element} (hitem : item ∈ s.items)
    {e : Element} (he : item = some e) : e.Suits d s.type.element :=
  elementsObey_iff.mp (obeys_iff.mp h).2 item hitem e he

variable {faithful : Bool}

section Commits

variable (hd : d.IsKept faithful)
include hd

namespace Discipline.IsKept

theorem isAdmitted {type : ModelType} (h : d.admits (.model type)) : ∀ field ∈ type.fields, field.kind.IsAdmitted d :=
  fun field hfield _ hinner => hd.held h (List.mem_filterMap.mpr ⟨field, hfield, hinner⟩)

theorem elementIsAdmitted {type : SequenceType} (h : d.admits (.sequence type)) :
    elementIsAdmitted d type.element := by
  intro element helement
  refine hd.held h (List.mem_map.mpr ⟨element, ?_, rfl⟩)
  exact Option.mem_toList.mpr helement

theorem model_self (type : ModelType) : d.model type type := hd.model (ModelType.same_iff.mpr rfl)

theorem sequence_self (type : SequenceType) : d.sequence type type := hd.sequence (SequenceType.same_iff.mpr rfl)

end Discipline.IsKept

/-- A commit of values that the kinds allow stores values that they allow. -/
theorem ModelType.obeys_of_commit {type : ModelType} (ha : d.admits (.model type)) {staged : List (Option FieldValue)}
    (hs : slotsObey d type.fields staged) {m : Model} (h : type.commit staged = .ok m) :
    m.Obeys d ∧ m.type = type := by
  obtain ⟨canonical, hcheck, rfl⟩ := commit_eq_ok.mp h
  exact ⟨Model.obeys_iff.mpr ⟨ha, hd.fields ha hs hcheck⟩, rfl⟩

/-- A commit of elements that the element type allows stores elements that it allows. -/
theorem SequenceType.obeys_of_commit {type : SequenceType} (ha : d.admits (.sequence type))
    {staged : List (Option Element)} (hs : elementsObey d type.element staged) {s : Sequence}
    (h : type.commit staged = .ok s) : s.Obeys d ∧ s.type = type := by
  obtain ⟨canonical, hcheck, rfl⟩ := commit_eq_ok.mp h
  exact ⟨Sequence.obeys_iff.mpr ⟨ha, hd.elements ha hs hcheck⟩, rfl⟩

end Commits

section Build

mutual
/-- What is built from plain values is within the rules. -/
theorem ModelType.obeys_of_build (hd : d.IsKept faithful) : ∀ {type : ModelType} {data : List (String × Json)}
    {m : Model}, d.admits (.model type) → type.build data = .ok m → m.Obeys d ∧ m.type = type
  | ⟨id, title, fields, validator, options⟩, data, m, ha, h => by
    obtain ⟨staged, hstaged, hcommit⟩ := ModelType.build_eq_ok.mp h
    exact ModelType.obeys_of_commit hd ha (slotsObey_of_buildFields hd (hd.isAdmitted ha) hstaged) hcommit

theorem slotsObey_of_buildFields (hd : d.IsKept faithful) : ∀ {fields : List Field} {data : List (String × Json)}
    {staged : List (Option FieldValue)}, (∀ field ∈ fields, field.kind.IsAdmitted d) →
    buildFields fields data = .ok staged → slotsObey d fields staged
  | [], data, staged, ha, h => by
    obtain rfl := Except.ok.inj (buildFields_nil.symm.trans h)
    trivial
  | field :: fields, data, staged, ha, h => by
    obtain ⟨hfirst, hfields⟩ := List.forall_mem_cons.mp ha
    obtain ⟨slot, rest, hslot, hrest, rfl⟩ := buildFields_cons_eq_ok.mp h
    have hobey := slotsObey_of_buildFields hd hfields hrest
    refine slotsObey_iff.mpr (.cons ?_ (slotsObey_iff.mp hobey))
    cases hmember : data.lookup field.name with
    | none =>
      rw [hmember] at hslot
      obtain rfl := Except.ok.inj hslot
      exact slotSuits_none
    | some v =>
      rw [hmember] at hslot
      obtain ⟨value, hvalue, rfl⟩ := map_eq_ok.mp hslot
      exact slotSuits_some.mpr (Field.suits_of_build hd hfirst hvalue)

theorem Field.suits_of_build (hd : d.IsKept faithful) : ∀ {field : Field} {v : Json} {value : FieldValue},
    field.kind.IsAdmitted d → field.build v = .ok value → value.Suits d field.kind
  | ⟨name, pointer, kind⟩, v, value, ha, h => by
    rw [Field.build, mapError_eq_ok] at h
    exact FieldKind.suits_of_build hd ha h

theorem FieldKind.suits_of_build (hd : d.IsKept faithful) : ∀ {kind : FieldKind} {v : Json} {value : FieldValue},
    kind.IsAdmitted d → kind.build v = .ok value → value.Suits d kind
  | .object type, v, value, ha, h => by
    cases v with
    | obj data =>
      rw [FieldKind.build] at h
      obtain ⟨m, hm, rfl⟩ := map_eq_ok.mp h
      obtain ⟨hobeys, rfl⟩ := ModelType.obeys_of_build hd (ha _ rfl) hm
      exact FieldValue.suits_model.mpr ⟨_, rfl, hd.model_self _, hobeys⟩
    | _ =>
      simp only [FieldKind.build] at h
      obtain rfl := Except.ok.inj h
      rw [FieldValue.Suits]
      exact hd.plain rfl
  | .array type, v, value, ha, h => by
    cases v with
    | arr items =>
      rw [FieldKind.build] at h
      obtain ⟨s, hs, rfl⟩ := map_eq_ok.mp h
      obtain ⟨hobeys, rfl⟩ := SequenceType.obeys_of_build hd (ha _ rfl) hs
      exact FieldValue.suits_sequence.mpr ⟨_, rfl, hd.sequence_self _, hobeys⟩
    | _ =>
      simp only [FieldKind.build] at h
      obtain rfl := Except.ok.inj h
      rw [FieldValue.Suits]
      exact hd.plain rfl
  | .scalar, v, value, ha, h
  | .union, v, value, ha, h => by
    simp only [FieldKind.build] at h
    obtain rfl := Except.ok.inj h
    rw [FieldValue.Suits]
    exact hd.plain rfl

theorem SequenceType.obeys_of_build (hd : d.IsKept faithful) :
    ∀ {type : SequenceType} {items : List Json} {s : Sequence},
    d.admits (.sequence type) → type.build items = .ok s → s.Obeys d ∧ s.type = type
  | ⟨id, element, validator, options⟩, items, s, ha, h => by
    obtain ⟨staged, hstaged, hcommit⟩ := SequenceType.build_eq_ok.mp h
    refine SequenceType.obeys_of_commit hd ha (elementsObey_iff.mpr fun item hitem e he => ?_) hcommit
    subst he
    obtain ⟨e', he', heq⟩ := List.mem_map.mp hitem
    obtain rfl := Option.some.inj heq
    obtain ⟨⟨v, i⟩, _, hbuild⟩ := exists_of_mem_results hstaged he'
    exact suits_of_buildElement hd (hd.elementIsAdmitted ha) (mapError_eq_ok.mp hbuild)

theorem suits_of_buildElement (hd : d.IsKept faithful) : ∀ {element : Option ModelType} {v : Json} {e : Element},
    elementIsAdmitted d element → buildElement element v = .ok e → e.Suits d element
  | some type, v, e, ha, h => by
    cases v with
    | obj data =>
      rw [buildElement] at h
      obtain ⟨m, hm, rfl⟩ := map_eq_ok.mp h
      obtain ⟨hobeys, rfl⟩ := ModelType.obeys_of_build hd (ha _ rfl) hm
      exact Element.suits_model.mpr ⟨_, rfl, hd.model_self _, hobeys⟩
    | _ =>
      simp only [buildElement] at h
      obtain rfl := Except.ok.inj h
      rw [Element.Suits]
      exact hd.plainElement rfl
  | none, v, e, ha, h => by
    simp only [buildElement] at h
    obtain rfl := Except.ok.inj h
    rw [Element.Suits]
    exact hd.plainElement rfl
end

theorem ModelType.obeys_empty {type : ModelType} (ha : d.admits (.model type)) : type.empty.Obeys d := by
  refine Model.obeys_iff.mpr ⟨ha, slotsObey_iff.mpr ?_⟩
  exact List.forall₂_map_right_iff.mpr (List.forall₂_same.mpr fun field _ => slotSuits_none)

theorem SequenceType.obeys_empty {type : SequenceType} (ha : d.admits (.sequence type)) : type.empty.Obeys d :=
  Sequence.obeys_iff.mpr ⟨ha, elementsObey_iff.mpr fun _ hitem => absurd hitem List.not_mem_nil⟩

theorem ModelType.obeys_of_create (hd : d.IsKept faithful) {type : ModelType} (ha : d.admits (.model type))
    {v : Json} {m : Model} (h : type.create v = .ok m) : m.Obeys d ∧ m.type = type := by
  rcases create_eq_ok.mp h with ⟨data, _, hbuild⟩ | ⟨_, rfl⟩
  · exact obeys_of_build hd ha hbuild
  · exact ⟨obeys_empty ha, rfl⟩

theorem Blueprint.obeys_of_create (hd : d.IsKept faithful) {type : Blueprint} (ha : d.admits type) {v : Json}
    {made : Instance} (h : type.create v = .ok made) : made.Obeys d := by
  cases type with
  | model type =>
    obtain ⟨m, hmade, rfl⟩ := map_eq_ok.mp h
    exact (ModelType.obeys_of_create hd ha hmade).1
  | sequence type =>
    obtain ⟨s, hmade, rfl⟩ := map_eq_ok.mp h
    exact (SequenceType.obeys_of_build hd ha hmade).1

end Build

section Merge

mutual
/-- Reading plain values into an instance leaves it within the rules, and keeps its type. -/
theorem Model.obeys_of_merge (hd : d.IsKept faithful) : ∀ {m : Model} {data : List (String × Json)} {after : Model},
    m.Obeys d → m.merge data = .ok after → after.Obeys d ∧ after.type = m.type
  | ⟨type, values⟩, data, after, ho, h => by
    obtain ⟨staged, hstaged, hcommit⟩ := Model.merge_eq_ok.mp h
    rw [Model.Obeys] at ho
    have hslots := slotsObey_of_mergeFields hd (hd.isAdmitted ho.1) ho.2 hstaged
    exact ModelType.obeys_of_commit hd ho.1 hslots hcommit

theorem slotsObey_of_mergeFields (hd : d.IsKept faithful) : ∀ {fields : List Field} {values : List (Option FieldValue)}
    {data : List (String × Json)} {staged : List (Option FieldValue)}, (∀ field ∈ fields, field.kind.IsAdmitted d) →
    slotsObey d fields values → mergeFields fields values data = .ok staged → slotsObey d fields staged
  | [], [], data, staged, ha, hs, h => by
    obtain rfl := Except.ok.inj (mergeFields_nil_left.symm.trans h)
    trivial
  | field :: fields, current :: values, data, staged, ha, hs, h => by
    have hslots := slotsObey_iff.mp hs
    rw [List.forall₂_cons] at hslots
    obtain ⟨hfirst, hfields⟩ := List.forall_mem_cons.mp ha
    obtain ⟨slot, rest, hslot, hrest, rfl⟩ := mergeFields_cons_eq_ok.mp h
    have hobey := slotsObey_of_mergeFields hd hfields (slotsObey_iff.mpr hslots.2) hrest
    refine slotsObey_iff.mpr (.cons ?_ (slotsObey_iff.mp hobey))
    cases hmember : data.lookup field.name with
    | none =>
      rw [hmember] at hslot
      obtain rfl := Except.ok.inj hslot
      exact hslots.1
    | some v =>
      rw [hmember] at hslot
      obtain ⟨value, hvalue, rfl⟩ := map_eq_ok.mp hslot
      exact slotSuits_some.mpr (suits_of_mergeValue hd hfirst hslots.1 hvalue)
  | [], _ :: _, _, _, _, hs, _ => by simp [slotsObey] at hs
  | _ :: _, [], _, _, _, hs, _ => by simp [slotsObey] at hs

theorem suits_of_mergeValue (hd : d.IsKept faithful) : ∀ {kind : FieldKind} {current : Option FieldValue} {v : Json}
    {value : FieldValue}, kind.IsAdmitted d → SlotSuits d kind current → mergeValue kind current v = .ok value →
    value.Suits d kind
  | .object type, some (.model m), v, value, ha, hs, h => by
    cases v with
    | obj data =>
      rw [mergeValue] at h
      obtain ⟨after, hafter, rfl⟩ := map_eq_ok.mp h
      obtain ⟨declared, heq, hmodel, hobeys⟩ := FieldValue.suits_model.mp (slotSuits_some.mp hs)
      obtain ⟨hafterObeys, htype⟩ := Model.obeys_of_merge hd hobeys hafter
      exact FieldValue.suits_model.mpr ⟨declared, heq, htype ▸ hmodel, hafterObeys⟩
    | _ =>
      simp only [mergeValue] at h
      exact FieldKind.suits_of_build hd ha h
  | .object type, some (.plain _), v, value, ha, hs, h
  | .object type, some (.sequence _), v, value, ha, hs, h
  | .object type, none, v, value, ha, hs, h
  | .array _, _, v, value, ha, hs, h
  | .scalar, _, v, value, ha, hs, h
  | .union, _, v, value, ha, hs, h => by
    simp only [mergeValue] at h
    exact FieldKind.suits_of_build hd ha h
end

end Merge

section Stage

/-- What an input that is an instance itself has to be like. -/
def FieldValue.Obeys (d : Discipline) : FieldValue → Prop
  | .plain _ => True
  | .model m => m.Obeys d
  | .sequence s => s.Obeys d

/-- What an input that is an instance itself has to be like. -/
def Element.Obeys (d : Discipline) : Element → Prop
  | .plain _ => True
  | .model m => m.Obeys d

@[simp] theorem FieldValue.obeys_plain (v : Json) : (FieldValue.plain v).Obeys d := trivial

@[simp] theorem Element.obeys_plain (v : Json) : (Element.plain v).Obeys d := trivial

/-- What a slot holds may serve as an input. -/
theorem FieldValue.Suits.obeys {v : FieldValue} {kind : FieldKind} (h : v.Suits d kind) : v.Obeys d := by
  cases v with
  | plain v => exact obeys_plain v
  | model m =>
    obtain ⟨_, _, _, hobeys⟩ := suits_model.mp h
    exact hobeys
  | sequence s =>
    obtain ⟨_, _, _, hobeys⟩ := suits_sequence.mp h
    exact hobeys

/-- An element may serve as an input. -/
theorem Element.Suits.obeys {e : Element} {element : Option ModelType} (h : e.Suits d element) : e.Obeys d := by
  cases e with
  | plain v => exact obeys_plain v
  | model m =>
    obtain ⟨_, _, _, hobeys⟩ := suits_model.mp h
    exact hobeys

theorem Model.isObject_toJson (m : Model) : m.toJson.isObject := by
  rw [toJson_eq]
  rfl

theorem Sequence.isArray_toJson (s : Sequence) : s.toJson.isArray := by
  rw [toJson_eq]
  rfl

theorem FieldKind.keepsPlain_of_isObject {kind : FieldKind} (hkind : ∀ type, kind ≠ .object type) {v : Json}
    (hv : v.isObject) : kind.keepsPlain v := by
  cases kind with
  | object type => exact absurd rfl (hkind type)
  | array type =>
    cases v with
    | obj members => rfl
    | _ => cases hv
  | scalar | union => rfl

theorem FieldKind.keepsPlain_of_isArray {kind : FieldKind} (hkind : ∀ type, kind ≠ .array type) {v : Json}
    (hv : v.isArray) : kind.keepsPlain v := by
  cases kind with
  | array type => exact absurd rfl (hkind type)
  | object type =>
    cases v with
    | arr items => rfl
    | _ => cases hv
  | scalar | union => rfl

variable (hd : d.IsKept faithful)
include hd

/-- Staging gives a slot what its kind allows, whichever input it is given. -/
theorem FieldKind.suits_of_stage {kind : FieldKind} (ha : kind.IsAdmitted d) {current : Option FieldValue}
    (hs : SlotSuits d kind current) {input value : FieldValue} (hinput : input.Obeys d)
    (h : kind.stage current input = .ok value) : value.Suits d kind := by
  cases input with
  | plain v => exact suits_of_mergeValue hd ha hs h
  | model m =>
    cases kind with
    | object type =>
      simp only [stage] at h
      split at h
      · rename_i hsame
        obtain rfl := Except.ok.inj h
        exact FieldValue.suits_model.mpr ⟨type, rfl, hd.model hsame, hinput⟩
      · obtain ⟨made, hmade, rfl⟩ := map_eq_ok.mp h
        obtain ⟨hobeys, rfl⟩ := ModelType.obeys_of_create hd (ha _ rfl) hmade
        exact FieldValue.suits_model.mpr ⟨_, rfl, hd.model_self _, hobeys⟩
    | _ =>
      obtain rfl := Except.ok.inj h
      rw [FieldValue.Suits]
      exact hd.plain (keepsPlain_of_isObject (by simp) m.isObject_toJson)
  | sequence s =>
    cases kind with
    | array type =>
      simp only [stage] at h
      split at h
      · rename_i hsame
        obtain rfl := Except.ok.inj h
        exact FieldValue.suits_sequence.mpr ⟨type, rfl, hd.sequence hsame, hinput⟩
      · obtain ⟨made, hmade, rfl⟩ := map_eq_ok.mp h
        obtain ⟨hobeys, rfl⟩ := SequenceType.obeys_of_build hd (ha _ rfl) hmade
        exact FieldValue.suits_sequence.mpr ⟨_, rfl, hd.sequence_self _, hobeys⟩
    | _ =>
      obtain rfl := Except.ok.inj h
      rw [FieldValue.Suits]
      exact hd.plain (keepsPlain_of_isArray (by simp) s.isArray_toJson)

/-- Staging gives a position what the element type allows, whichever input it is given. -/
theorem SequenceType.suits_of_stage {type : SequenceType} (ha : d.admits (.sequence type)) {input e : Element}
    (hinput : input.Obeys d) (h : type.stage input = .ok e) : e.Suits d type.element := by
  have hadmitted := hd.elementIsAdmitted ha
  cases input with
  | plain v => exact suits_of_buildElement hd hadmitted h
  | model m =>
    cases helement : type.element with
    | some element =>
      simp only [stage, helement] at h
      split at h
      · rename_i hsame
        obtain rfl := Except.ok.inj h
        exact Element.suits_model.mpr ⟨element, rfl, hd.model hsame, hinput⟩
      · obtain ⟨made, hmade, rfl⟩ := map_eq_ok.mp h
        obtain ⟨hobeys, rfl⟩ := ModelType.obeys_of_create hd (hadmitted _ helement) hmade
        exact Element.suits_model.mpr ⟨_, rfl, hd.model_self _, hobeys⟩
    | none =>
      simp only [stage, helement] at h
      obtain rfl := Except.ok.inj h
      rw [Element.Suits]
      exact hd.plainElement rfl

theorem SequenceType.suits_of_stageFrom {type : SequenceType} (ha : d.admits (.sequence type)) {start : Nat}
    {inputs : List Element} (hinputs : ∀ input ∈ inputs, input.Obeys d) {staged : List (Option Element)}
    (h : type.stageFrom start inputs = .ok staged) :
    ∀ item ∈ staged, ∀ e, item = some e → e.Suits d type.element := by
  intro item hitem e he
  obtain ⟨⟨input, i⟩, hinput, hstage⟩ := exists_of_mem_results h hitem
  simp only [bind_eq_ok, mapError_eq_ok, pure_eq_ok] at hstage
  obtain ⟨e', he', rfl⟩ := hstage
  obtain rfl := Option.some.inj he
  exact suits_of_stage hd ha (hinputs input (List.fst_mem_of_mem_zipIdx hinput)) he'

end Stage
end SchemaBound
