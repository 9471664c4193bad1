import SchemaBound.Proofs.Instance.Projection
import SchemaBound.Proofs.Instance.Sound

/-! Updates without conversion: what an instance is worth after an object was read into it is the deep merge of
that object into what it was worth before. -/
namespace SchemaBound
open Json Success

mutual
/-- An object with the declared members of another one read into it, in the order of declaration. -/
def ModelType.deepMerge : ModelType → List (String × Json) → List (String × Json) → Json
  | ⟨_, _, fields, _, _⟩, old, data => .obj (deepMergeFields fields old data)

/-- Each declared member that one of the objects has. Those that the second one lacks are kept. -/
def deepMergeFields : List Field → List (String × Json) → List (String × Json) → List (String × Json)
  | [], _, _ => []
  | field :: fields, old, data =>
    match data.lookup field.name with
    | some v => (field.name, field.deepMerge (old.lookup field.name) v) :: deepMergeFields fields old data
    | none =>
      match old.lookup field.name with
      | some current => (field.name, current) :: deepMergeFields fields old data
      | none => deepMergeFields fields old data

def Field.deepMerge : Field → Option Json → Json → Json
  | ⟨_, _, kind⟩, current, v => kind.deepMerge current v

/-- Where a field of nested instances has an object already, an object is read into that one. Any other value takes
the place of what the field has. -/
def FieldKind.deepMerge : FieldKind → Option Json → Json → Json
  | .object type, some (.obj old), .obj data => type.deepMerge old data
  | kind, _, v => kind.project v
end

theorem ModelType.deepMerge_eq (type : ModelType) (old data : List (String × Json)) :
    type.deepMerge old data = .obj (deepMergeFields type.fields old data) := by
  obtain ⟨id, title, fields, validator, options⟩ := type
  rw [deepMerge]

theorem Field.deepMerge_eq (field : Field) (current : Option Json) (v : Json) :
    field.deepMerge current v = field.kind.deepMerge current v := by
  obtain ⟨name, pointer, kind⟩ := field
  rw [deepMerge]

/-- A field of nested instances that is sound has an object exactly if it holds an instance. -/
theorem SlotFits.object_iff {type : ModelType} {slot : Option FieldValue} (h : SlotFits (.object type) slot) :
    (∃ m, slot = some (.model m)) ↔ ∃ members, slot.map FieldValue.toJson = some (.obj members) := by
  constructor
  · rintro ⟨m, rfl⟩
    exact ⟨_, by rw [Option.map_some, FieldValue.toJson, m.toJson_eq]⟩
  · rintro ⟨members, hmembers⟩
    obtain ⟨v, rfl, hv⟩ := Option.map_eq_some_iff.mp hmembers
    have hfits := slotFits_some.mp h
    cases v with
    | plain raw =>
      rw [FieldValue.toJson] at hv
      rw [hv, FieldValue.Fits] at hfits
      cases hfits
    | model m => exact ⟨m, rfl⟩
    | sequence s => exact hfits.elim

mutual
/-- Without conversion the value after an object is read into a sound model is the deep merge. -/
theorem Model.toJson_of_merge : ∀ {m : Model} {data : List (String × Json)} {after : Model},
    m.type.Throughout Blueprint.IsVerbatim → m.IsSound → m.merge data = .ok after →
    after.toJson = m.type.deepMerge (snapshot m.type.fields m.values) data
  | ⟨type, values⟩, data, after, hv, hs, h => by
    obtain ⟨staged, hstaged, hcommit⟩ := Model.merge_eq_ok.mp h
    obtain ⟨hself, hkinds⟩ := ModelType.throughout_iff.mp hv
    rw [Model.IsSound] at hs
    have hlength : values.length = type.fields.length := (slotsFit_iff.mp hs).length_eq.symm
    rw [ModelType.toJson_of_commit hself hcommit, ModelType.deepMerge_eq,
      snapshot_of_mergeFields hkinds hs (forall₂_lookup_snapshot hself.names hlength) hstaged]

theorem snapshot_of_mergeFields : ∀ {fields : List Field} {values : List (Option FieldValue)}
    {old data : List (String × Json)} {staged : List (Option FieldValue)},
    (∀ field ∈ fields, field.kind.Throughout Blueprint.IsVerbatim) → slotsFit fields values →
    List.Forall₂ (fun field slot => old.lookup field.name = slot.map FieldValue.toJson) fields values →
    mergeFields fields values data = .ok staged → snapshot fields staged = deepMergeFields fields old data
  | [], [], old, data, staged, hv, hs, hold, h => by
    rw [snapshot, deepMergeFields] <;> nofun
  | field :: fields, current :: values, old, data, staged, hv, hs, hold, h => by
    obtain ⟨hkind, hkinds⟩ := List.forall_mem_cons.mp hv
    obtain ⟨hcurrent, hrest⟩ := List.forall₂_cons.mp hold
    obtain ⟨hfit, hfits⟩ := List.forall₂_cons.mp (slotsFit_iff.mp hs)
    obtain ⟨slot, rest, hslot, hmerge, rfl⟩ := mergeFields_cons_eq_ok.mp h
    have hsame := snapshot_of_mergeFields hkinds (slotsFit_iff.mpr hfits) hrest hmerge
    cases hdata : data.lookup field.name with
    | none =>
      rw [hdata] at hslot
      obtain rfl := Except.ok.inj hslot
      cases current with
      | none => rw [snapshot, deepMergeFields, hdata, hcurrent, hsame, Option.map_none]
      | some v => rw [snapshot, deepMergeFields, hdata, hcurrent, hsame, Option.map_some]
    | some v =>
      rw [hdata] at hslot
      obtain ⟨value, hvalue, rfl⟩ := map_eq_ok.mp hslot
      have hhere := toJson_of_mergeValue hkind hfit hvalue
      rw [snapshot, deepMergeFields, hdata, hcurrent, hsame, hhere]
      dsimp only
      rw [Field.deepMerge_eq]
  | [], _ :: _, _, _, _, _, hs, _, _ => by simp [slotsFit] at hs
  | _ :: _, [], _, _, _, _, hs, _, _ => by simp [slotsFit] at hs

theorem toJson_of_mergeValue : ∀ {kind : FieldKind} {current : Option FieldValue} {v : Json} {value : FieldValue},
    kind.Throughout Blueprint.IsVerbatim → SlotFits kind current → mergeValue kind current v = .ok value →
    value.toJson = kind.deepMerge (current.map FieldValue.toJson) v
  | .object type, some (.model m), v, value, hv, hs, h => by
    cases v with
    | obj data =>
      rw [mergeValue] at h
      obtain ⟨after, hafter, rfl⟩ := map_eq_ok.mp h
      obtain ⟨type', heq, rfl, _, hsound⟩ := FieldValue.fits_model.mp (slotFits_some.mp hs)
      obtain rfl := FieldKind.object.inj heq
      rw [FieldKind.throughout_object] at hv
      rw [FieldValue.toJson, Option.map_some, FieldValue.toJson, m.toJson_eq, FieldKind.deepMerge,
        Model.toJson_of_merge hv hsound hafter]
    | _ =>
      simp only [mergeValue] at h
      rw [FieldKind.toJson_of_build hv h, FieldKind.deepMerge]
      nofun
  | .object type, some (.plain w), v, value, hv, hs, h => by
    have hplain : ∀ members, w ≠ .obj members := by
      rintro members rfl
      have hfits := slotFits_some.mp hs
      rw [FieldValue.Fits] at hfits
      cases hfits
    simp only [mergeValue] at h
    rw [FieldKind.toJson_of_build hv h, FieldKind.deepMerge]
    rintro _ old data ⟨⟩ hold
    exact absurd (Option.some.inj hold) (hplain old)
  | .object type, some (.sequence s), v, value, hv, hs, h => (slotFits_some.mp hs).elim
  | .object type, none, v, value, hv, hs, h => by
    simp only [mergeValue] at h
    rw [FieldKind.toJson_of_build hv h, FieldKind.deepMerge]
    nofun
  | .array type, current, v, value, hv, hs, h
  | .scalar, current, v, value, hv, hs, h
  | .union, current, v, value, hv, hs, h => by
    simp only [mergeValue] at h
    rw [FieldKind.toJson_of_build hv h, FieldKind.deepMerge]
    nofun
end

end SchemaBound
