import SchemaBound.Instance.Edit
import SchemaBound.Proofs.Success

/-! Fields of a model by their position: reading and changing a field is reading and changing what stands at
the position of its name. -/
namespace SchemaBound
open Success

/-- The position and the declaration of a field, and what it holds. -/
def slotIn? (name : String) (fields : List Field) (values : List (Option FieldValue)) :
    Option (Nat × Field × Option FieldValue) :=
  ((fields.zip values).findIdx? (·.1.name = name)).bind fun i =>
    (fields.zip values)[i]?.map fun (field, current) => (i, field, current)

/-- The position and the declaration of a field of the model, and what it holds. -/
def Model.slotOf? (m : Model) (name : String) : Option (Nat × Field × Option FieldValue) :=
  slotIn? name m.type.fields m.values

variable {α : Type} {name : String}

theorem slotIn?_nil (fields : List Field) : slotIn? name fields [] = none := by
  simp [slotIn?]

/-- The first field of the name counts. -/
theorem slotIn?_cons (field : Field) (fields : List Field) (current : Option FieldValue)
    (values : List (Option FieldValue)) :
    slotIn? name (field :: fields) (current :: values) =
      if field.name = name then some (0, field, current)
      else (slotIn? name fields values).map fun (slot, found) => (slot + 1, found) := by
  unfold slotIn?
  rw [List.zip_cons_cons, List.findIdx?_cons]
  by_cases hname : field.name = name
  · simp [hname]
  · simp only [hname, if_false, decide_false, Bool.false_eq_true]
    cases (fields.zip values).findIdx? (·.1.name = name) with
    | none => rfl
    | some i =>
      simp only [Option.bind_some, Option.map_some, List.getElem?_cons_succ]
      cases (fields.zip values)[i]? <;> rfl

/-- Changing a field in a list is changing what stands at its position. -/
theorem changeField_eq (f : Field → Option FieldValue → Except Error (α × Option FieldValue))
    (fields : List Field) (values : List (Option FieldValue)) :
    changeField name f fields values =
      match slotIn? name fields values with
      | none => .error (.unknownField name)
      | some (slot, field, current) => do
        let (a, value) ← f field current
        return (a, values.set slot value) := by
  induction fields generalizing values with
  | nil => simp [changeField, slotIn?]
  | cons field fields ih =>
    cases values with
    | nil => simp [changeField, slotIn?]
    | cons current values =>
      rw [changeField, slotIn?_cons]
      by_cases hname : field.name = name
      · simp [hname]
      · rw [if_neg hname, if_neg hname, ih]
        cases slotIn? name fields values with
        | none => rfl
        | some slot =>
          simp only [Option.map_some]
          cases f slot.2.1 slot.2.2 <;> rfl

namespace Model

variable {m : Model}

/-- Changing a field of a model. -/
theorem change_eq (f : Field → Option FieldValue → Except Error (α × Option FieldValue)) :
    m.change name f =
      match m.slotOf? name with
      | none => .error (.unknownField name)
      | some (slot, field, current) => do
        let (a, value) ← f field current
        return (a, ← m.type.commit (m.values.set slot value)) := by
  unfold change slotOf?
  rw [changeField_eq]
  cases slotIn? name m.type.fields m.values with
  | none => rfl
  | some slot =>
    obtain ⟨i, field, current⟩ := slot
    dsimp only
    cases f field current <;> rfl

/-- Only what is done to the field of the name and to its content counts. -/
theorem change_congr {f f' : Field → Option FieldValue → Except Error (α × Option FieldValue)}
    (h : ∀ slot field current, m.slotOf? name = some (slot, field, current) → f field current = f' field current) :
    m.change name f = m.change name f' := by
  rw [change_eq, change_eq]
  cases hslot : m.slotOf? name with
  | none => rfl
  | some slot =>
    obtain ⟨i, field, current⟩ := slot
    dsimp only
    rw [h i field current hslot]

/-- What a field holds is what stands at its position. -/
theorem get?_eq : m.get? name = (m.slotOf? name).bind (·.2.2) := by
  have hslot (fields : List Field) (values : List (Option FieldValue)) :
      ((fields.findIdx? (·.name = name)).bind fun slot => values[slot]?.join) =
        (slotIn? name fields values).bind (·.2.2) := by
    induction fields generalizing values with
    | nil => simp [slotIn?]
    | cons field fields ih =>
      cases values with
      | nil => simp [slotIn?]
      | cons current values =>
        rw [slotIn?_cons, List.findIdx?_cons]
        by_cases hname : field.name = name
        · simp [hname]
        · simp only [hname, if_false, decide_false, Bool.false_eq_true, Option.bind_map]
          exact ih values
  exact hslot m.type.fields m.values

theorem slotOf?_of_get? {v : FieldValue} (h : m.get? name = some v) :
    ∃ slot field, m.slotOf? name = some (slot, field, some v) := by
  rw [get?_eq, Option.bind_eq_some_iff] at h
  obtain ⟨⟨slot, field, _⟩, hslot, rfl⟩ := h
  exact ⟨slot, field, hslot⟩

theorem get?_of_model? {nested : Model} (h : m.model? name = some nested) : m.get? name = some (.model nested) := by
  unfold model? at h
  split at h
  · rename_i found hfound
    rw [hfound, Option.some.inj h]
  · cases h

theorem get?_of_sequence? {nested : Sequence} (h : m.sequence? name = some nested) :
    m.get? name = some (.sequence nested) := by
  unfold sequence? at h
  split at h
  · rename_i found hfound
    rw [hfound, Option.some.inj h]
  · cases h

theorem slotOf?_eq_some {slot : Nat} {field : Field} {current : Option FieldValue}
    (h : m.slotOf? name = some (slot, field, current)) :
    m.type.fields[slot]? = some field ∧ m.values[slot]? = some current ∧ field.name = name := by
  obtain ⟨i, hi, h⟩ := Option.bind_eq_some_iff.mp h
  obtain ⟨⟨field', current'⟩, hslot, h⟩ := Option.map_eq_some_iff.mp h
  simp only [Prod.mk.injEq] at h
  obtain ⟨rfl, rfl, rfl⟩ := h
  obtain ⟨hfield, hcurrent⟩ := List.getElem?_zip_eq_some.mp hslot
  obtain ⟨hlt, hname, _⟩ := List.findIdx?_eq_some_iff_getElem.mp hi
  rw [List.getElem?_eq_getElem hlt, Option.some.injEq] at hslot
  rw [hslot] at hname
  exact ⟨hfield, hcurrent, of_decide_eq_true hname⟩

theorem model?_of_slotOf? {slot : Nat} {field : Field} {nested : Model}
    (h : m.slotOf? name = some (slot, field, some (.model nested))) : m.model? name = some nested := by
  unfold model?
  rw [get?_eq, h]
  rfl

theorem sequence?_of_slotOf? {slot : Nat} {field : Field} {nested : Sequence}
    (h : m.slotOf? name = some (slot, field, some (.sequence nested))) : m.sequence? name = some nested := by
  unfold sequence?
  rw [get?_eq, h]
  rfl

/-- A change that succeeds found the field and committed the new content at its position. -/
theorem change_eq_ok {f : Field → Option FieldValue → Except Error (α × Option FieldValue)} {a : α}
    {after : Model} :
    m.change name f = .ok (a, after) ↔
      ∃ slot field current value, m.slotOf? name = some (slot, field, current) ∧
        f field current = .ok (a, value) ∧ m.type.commit (m.values.set slot value) = .ok after := by
  rw [change_eq]
  cases m.slotOf? name with
  | none => simp
  | some slot =>
    obtain ⟨i, field, current⟩ := slot
    simp only [bind_eq_ok, pure_eq_ok, Prod.mk.injEq, Prod.exists, Option.some.injEq]
    constructor
    · rintro ⟨a', value, hvalue, after', hafter, rfl, rfl⟩
      exact ⟨i, field, current, value, ⟨rfl, rfl, rfl⟩, hvalue, hafter⟩
    · rintro ⟨_, _, _, value, ⟨rfl, rfl, rfl⟩, hvalue, hafter⟩
      exact ⟨a, value, hvalue, after, hafter, rfl, rfl⟩

/-- There is one slot for each field. -/
def IsAligned (m : Model) : Prop := m.values.length = m.type.fields.length

end Model

/-- What a field holds after a member is read, if there is one. -/
def Field.buildSlot (field : Field) : Option Json → Except Error (Option FieldValue)
  | none => .ok none
  | some v => (field.build v).map some

/-- What a field holds after a member is read into what it held before, if there is one. -/
def mergeSlot (kind : FieldKind) (current : Option FieldValue) : Option Json → Except Error (Option FieldValue)
  | none => .ok current
  | some v => (mergeValue kind current v).map some

section Staged

variable {field : Field} {fields : List Field} {current : Option FieldValue} {values staged : List (Option FieldValue)}
  {data : List (String × Json)}

@[simp] theorem buildFields_nil : buildFields [] data = .ok [] := by
  rw [buildFields]

/-- Building goes field by field. -/
theorem buildFields_cons_eq_ok : buildFields (field :: fields) data = .ok staged ↔
    ∃ slot rest, field.buildSlot (data.lookup field.name) = .ok slot ∧ buildFields fields data = .ok rest ∧
      slot :: rest = staged := by
  rw [buildFields]
  cases data.lookup field.name <;> simp [Field.buildSlot, bind_eq_ok, map_eq_ok, pure_eq_ok, -bind_pure_comp]

@[simp] theorem mergeFields_nil_left : mergeFields [] values data = .ok [] := by
  simp [mergeFields]

@[simp] theorem mergeFields_nil_right : mergeFields fields [] data = .ok [] := by
  simp [mergeFields]

/-- Merging goes field by field. -/
theorem mergeFields_cons_eq_ok : mergeFields (field :: fields) (current :: values) data = .ok staged ↔
    ∃ slot rest, mergeSlot field.kind current (data.lookup field.name) = .ok slot ∧
      mergeFields fields values data = .ok rest ∧ slot :: rest = staged := by
  rw [mergeFields]
  cases data.lookup field.name <;>
    simp [mergeSlot, bind_eq_ok, map_eq_ok, mapError_eq_ok, pure_eq_ok, -bind_pure_comp]

theorem length_of_buildFields (h : buildFields fields data = .ok staged) : staged.length = fields.length := by
  induction fields generalizing staged with
  | nil =>
    obtain rfl := Except.ok.inj (buildFields_nil.symm.trans h)
    rfl
  | cons field fields ih =>
    obtain ⟨slot, rest, _, hrest, rfl⟩ := buildFields_cons_eq_ok.mp h
    rw [List.length_cons, List.length_cons, ih hrest]

theorem length_of_mergeFields (hlength : values.length = fields.length)
    (h : mergeFields fields values data = .ok staged) : staged.length = fields.length := by
  induction fields generalizing values staged with
  | nil =>
    obtain rfl := Except.ok.inj (mergeFields_nil_left.symm.trans h)
    rfl
  | cons field fields ih =>
    cases values with
    | nil => simp at hlength
    | cons current values =>
      obtain ⟨slot, rest, _, hrest, rfl⟩ := mergeFields_cons_eq_ok.mp h
      rw [List.length_cons, List.length_cons, ih (Nat.succ.inj hlength) hrest]

end Staged

/-- A plain value gives way to the canonical one, if there is one. -/
def FieldValue.adopt (canonical : Option Json) : FieldValue → FieldValue
  | .plain raw => .plain (canonical.getD raw)
  | v => v

/-- A plain element gives way to the canonical one, if there is one. -/
def Element.adopt (canonical : Option Json) : Element → Element
  | .plain raw => .plain (canonical.getD raw)
  | e => e

theorem FieldValue.adopt_adopt (canonical : Option Json) (v : FieldValue) :
    adopt canonical (adopt canonical v) = adopt canonical v := by
  cases v with
  | plain raw => cases canonical <;> rfl
  | _ => rfl

theorem Element.adopt_adopt (canonical : Option Json) (e : Element) :
    adopt canonical (adopt canonical e) = adopt canonical e := by
  cases e with
  | plain raw => cases canonical <;> rfl
  | model m => rfl

section Adopted

variable (canonical : Json) (fields : List Field) (values : List (Option FieldValue))

@[simp] theorem adoptFields_nil_left : adoptFields canonical [] values = [] := by
  simp [adoptFields]

@[simp] theorem adoptFields_nil_right : adoptFields canonical fields [] = [] := by
  cases fields <;> simp [adoptFields]

/-- Whatever a field holds, it adopts the member of its name. -/
theorem adoptFields_cons (field : Field) (current : Option FieldValue) :
    adoptFields canonical (field :: fields) (current :: values) =
      current.map (FieldValue.adopt (canonical.get? field.name)) :: adoptFields canonical fields values := by
  rcases current with _ | ⟨raw⟩ | ⟨m⟩ | ⟨s⟩ <;> simp [adoptFields, FieldValue.adopt]

theorem adoptElements_cons (canonical : List Json) (item : Option Element) (items : List (Option Element)) :
    adoptElements canonical (item :: items) =
      item.map (Element.adopt canonical.head?) :: adoptElements canonical.tail items := by
  rcases item with _ | ⟨raw⟩ | ⟨m⟩ <;> simp [adoptElements, Element.adopt]

end Adopted

theorem length_adoptFields (canonical : Json) {fields : List Field} {values : List (Option FieldValue)}
    (hlength : values.length = fields.length) : (adoptFields canonical fields values).length = fields.length := by
  induction fields generalizing values with
  | nil => simp
  | cons field fields ih =>
    cases values with
    | nil => simp at hlength
    | cons current values =>
      rw [adoptFields_cons, List.length_cons, List.length_cons, ih (Nat.succ.inj hlength)]

theorem length_adoptElements (canonical : List Json) (items : List (Option Element)) :
    (adoptElements canonical items).length = items.length := by
  induction items generalizing canonical with
  | nil => simp [adoptElements]
  | cons item items ih => rw [adoptElements_cons, List.length_cons, List.length_cons, ih]

/-- A commit of one value for each field stores one value for each field. -/
theorem ModelType.isAligned_of_commit {type : ModelType} {staged : List (Option FieldValue)}
    (hlength : staged.length = type.fields.length) {m : Model} (h : type.commit staged = .ok m) : m.IsAligned := by
  unfold commit at h
  split at h
  · obtain rfl := Except.ok.inj h
    exact length_adoptFields _ hlength
  · cases h

theorem ModelType.isAligned_empty (type : ModelType) : type.empty.IsAligned := by
  simp [empty, Model.IsAligned]

end SchemaBound
