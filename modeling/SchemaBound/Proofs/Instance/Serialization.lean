import SchemaBound.Instance.Serialization
import SchemaBound.Proofs.Instance.ListChange
import SchemaBound.Proofs.Json.Members

/-! The text that an instance is written as is the text of its value. The writing goes over the instance itself, the
value is collected from it first; both list the set fields in the order of declaration, and the positions. -/
namespace SchemaBound

namespace Json

/-- The written form of a member. -/
def memberText (name text : String) : String := quote name ++ ":" ++ text

theorem compactItems_eq (items : List Json) : compactItems items = ",".intercalate (items.map compact) := by
  induction items with
  | nil => rw [compactItems, List.map_nil, String.intercalate_nil]
  | cons v rest ih =>
    cases rest with
    | nil => rw [compactItems, List.map_singleton, String.intercalate_singleton]
    | cons next rest =>
      have hne : (next :: rest).map compact ≠ [] := List.cons_ne_nil _ _
      rw [compactItems, ih, ← String.intercalate_cons_of_ne_nil hne]
      · rfl
      · exact List.cons_ne_nil _ _

theorem compactMembers_eq (members : List (String × Json)) :
    compactMembers members = ",".intercalate (members.map fun member => memberText member.1 member.2.compact) := by
  induction members with
  | nil => rw [compactMembers, List.map_nil, String.intercalate_nil]
  | cons member rest ih =>
    cases rest with
    | nil =>
      rw [compactMembers, List.map_singleton, String.intercalate_singleton]
      rfl
    | cons next rest =>
      have hne : (next :: rest).map (fun member => memberText member.1 member.2.compact) ≠ [] := List.cons_ne_nil _ _
      rw [compactMembers, ih, ← String.intercalate_cons_of_ne_nil hne]
      · rfl
      · exact List.cons_ne_nil _ _

/-- The object that takes in members one after another. -/
def collect (members : List (String × Json)) : List (String × Json) :=
  members.foldl (fun collected member => setMember member.1 member.2 collected) []

theorem setMember_of_not_mem {name : String} {members : List (String × Json)} (h : name ∉ members.map (·.1))
    (v : Json) : setMember name v members = members ++ [(name, v)] := by
  induction members with
  | nil => rfl
  | cons member rest ih =>
    rw [List.map_cons, List.mem_cons, not_or] at h
    rw [setMember, if_neg (Ne.symm h.1), ih h.2, List.cons_append]

/-- Members of different names come in as they are. -/
theorem collect_of_nodup {members : List (String × Json)} (h : (members.map (·.1)).Nodup) :
    collect members = members := by
  have hall (before after : List (String × Json)) (h : ((before ++ after).map (·.1)).Nodup) :
      after.foldl (fun collected member => setMember member.1 member.2 collected) before = before ++ after := by
    induction after generalizing before with
    | nil => rw [List.foldl_nil, List.append_nil]
    | cons member rest ih =>
      have hnew : member.1 ∉ before.map (·.1) := by
        rw [List.map_append, List.map_cons, List.nodup_append] at h
        exact fun hmem => h.2.2 _ hmem _ List.mem_cons_self rfl
      have hmoved : before ++ member :: rest = before ++ [member] ++ rest := by simp
      rw [List.foldl_cons, setMember_of_not_mem hnew, hmoved, ih _ (hmoved ▸ h)]
  exact hall [] members h

end Json

section Fields

variable {fields : List Field} {values : List (Option FieldValue)} {name : String} {v : FieldValue}

/-- The set fields in the order of declaration. -/
def fieldsIn (fields : List Field) (values : List (Option FieldValue)) : List (String × FieldValue) :=
  (fields.zip values).filterMap fun (field, value) => value.map (field.name, ·)

theorem Model.fields_eq (m : Model) : m.fields = fieldsIn m.type.fields m.values := rfl

@[simp] theorem fieldsIn_nil_left : fieldsIn [] values = [] := rfl

@[simp] theorem fieldsIn_nil_right : fieldsIn fields [] = [] := by
  rw [fieldsIn, List.zip_nil_right, List.filterMap_nil]

@[simp] theorem fieldsIn_cons_none (field : Field) :
    fieldsIn (field :: fields) (none :: values) = fieldsIn fields values := rfl

@[simp] theorem fieldsIn_cons_some (field : Field) :
    fieldsIn (field :: fields) (some v :: values) = (field.name, v) :: fieldsIn fields values := rfl

theorem snapshot_eq_map (fields : List Field) (values : List (Option FieldValue)) :
    snapshot fields values = (fieldsIn fields values).map fun entry => (entry.1, entry.2.toJson) := by
  induction fields generalizing values with
  | nil => simp [snapshot]
  | cons field fields ih =>
    match values with
    | [] => simp [snapshot]
    | none :: values => rw [snapshot, ih, fieldsIn_cons_none]
    | some v :: values => rw [snapshot, ih, fieldsIn_cons_some, List.map_cons]

theorem serializeFields_eq_map (fields : List Field) (values : List (Option FieldValue)) :
    serializeFields fields values =
      (fieldsIn fields values).map fun entry => Json.memberText entry.1 entry.2.serialize := by
  induction fields generalizing values with
  | nil => simp [serializeFields]
  | cons field fields ih =>
    match values with
    | [] => simp [serializeFields]
    | none :: values => rw [serializeFields, ih, fieldsIn_cons_none]
    | some v :: values =>
      rw [serializeFields, ih, fieldsIn_cons_some, List.map_cons]
      rfl

theorem names_fieldsIn_sublist (fields : List Field) (values : List (Option FieldValue)) :
    ((fieldsIn fields values).map (·.1)).Sublist (fields.map Field.name) := by
  have hsub := sublist_names_snapshot fields values
  rwa [snapshot_eq_map, List.map_map] at hsub

/-- A field is listed with what it holds, if it is set. -/
theorem mem_fieldsIn_iff (hn : (fields.map Field.name).Nodup) :
    (name, v) ∈ fieldsIn fields values ↔ (slotIn? name fields values).bind (·.2.2) = some v := by
  induction fields generalizing values with
  | nil => simp [slotIn?]
  | cons field fields ih =>
    rw [List.map_cons, List.nodup_cons] at hn
    cases values with
    | nil => simp [slotIn?]
    | cons current values =>
      have hother : field.name = name → (name, v) ∉ fieldsIn fields values := by
        rintro rfl hmem
        exact hn.1 ((names_fieldsIn_sublist fields values).subset (List.mem_map_of_mem hmem))
      rw [slotIn?_cons]
      split_ifs with hname
      · cases current with
        | none => simpa using hother hname
        | some current => simp [hname, hother hname, eq_comm]
      · have hrest : (name, v) ∈ fieldsIn (field :: fields) (current :: values) ↔
            (name, v) ∈ fieldsIn fields values := by
          cases current with
          | none => exact Iff.rfl
          | some current => simp [Ne.symm hname]
        rw [hrest, ih hn.2, Option.bind_map]
        rfl

theorem length_fieldsIn (hlength : values.length = fields.length) :
    (fieldsIn fields values).length = values.countP Option.isSome := by
  induction fields generalizing values with
  | nil =>
    obtain rfl := List.length_eq_zero_iff.mp hlength
    rfl
  | cons field fields ih =>
    match values with
    | none :: values => simpa using ih (Nat.succ.inj hlength)
    | some v :: values => simpa using ih (Nat.succ.inj hlength)

end Fields

/-- The text of a position. -/
def positionText (item : Option Element) : String := (item.map Element.serialize).getD "null"

theorem serializeElements_eq_map (items : List (Option Element)) :
    serializeElements items = items.map positionText := by
  induction items with
  | nil => rw [serializeElements, List.map_nil]
  | cons item rest ih => cases item <;> rw [serializeElements, ih] <;> rfl

mutual
/-- What is written is the text of the value, at every depth. -/
theorem Model.serialize_eq : ∀ m : Model, m.serialize = m.toJson.compact
  | ⟨type, values⟩ => by
    rw [Model.serialize, Model.toJson, Json.compact, Json.compactMembers_eq, serializeFields_eq type.fields values]

theorem serializeFields_eq : ∀ (fields : List Field) (values : List (Option FieldValue)),
    serializeFields fields values =
      (snapshot fields values).map fun member => Json.memberText member.1 member.2.compact
  | field :: fields, some v :: values => by
    rw [serializeFields, snapshot, v.serialize_eq, serializeFields_eq fields values]
    rfl
  | field :: fields, none :: values => by
    rw [serializeFields, snapshot, serializeFields_eq fields values]
  | [], _ => by simp [serializeFields, snapshot]
  | _ :: _, [] => by simp [serializeFields, snapshot]

theorem FieldValue.serialize_eq : ∀ v : FieldValue, v.serialize = v.toJson.compact
  | .plain v => by rw [FieldValue.serialize, FieldValue.toJson]
  | .model m => by rw [FieldValue.serialize, FieldValue.toJson, m.serialize_eq]
  | .sequence s => by rw [FieldValue.serialize, FieldValue.toJson, s.serialize_eq]

theorem Sequence.serialize_eq : ∀ s : Sequence, s.serialize = s.toJson.compact
  | ⟨type, items⟩ => by
    rw [Sequence.serialize, Sequence.toJson, Json.compact, Json.compactItems_eq, serializeElements_eq items]

theorem serializeElements_eq : ∀ items : List (Option Element),
    serializeElements items = (listing items).map Json.compact
  | [] => by rw [serializeElements, listing, List.map_nil]
  | some e :: items => by
    rw [serializeElements, listing, e.serialize_eq, serializeElements_eq items, List.map_cons]
  | none :: items => by
    rw [serializeElements, listing, serializeElements_eq items, List.map_cons, Json.compact]

theorem Element.serialize_eq : ∀ e : Element, e.serialize = e.toJson.compact
  | .plain v => by rw [Element.serialize, Element.toJson]
  | .model m => by rw [Element.serialize, Element.toJson, m.serialize_eq]
end

end SchemaBound
