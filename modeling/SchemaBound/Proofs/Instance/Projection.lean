import SchemaBound.Proofs.Instance.Commit

/-! What instances are made of when nothing is converted: the declared members of an object in the order of
declaration, and the same inside nested objects and arrays. -/
namespace SchemaBound
open Json Success

mutual
/-- The declared members of an object, in the order of declaration. -/
def ModelType.project : ModelType → List (String × Json) → Json
  | ⟨_, _, fields, _, _⟩, data => .obj (projectFields fields data)

/-- Each declared member that the object has. -/
def projectFields : List Field → List (String × Json) → List (String × Json)
  | [], _ => []
  | field :: fields, data =>
    match data.lookup field.name with
    | none => projectFields fields data
    | some v => (field.name, field.project v) :: projectFields fields data

def Field.project : Field → Json → Json
  | ⟨_, _, kind⟩, v => kind.project v

def FieldKind.project : FieldKind → Json → Json
  | .object type, .obj data => type.project data
  | .array type, .arr items => type.project items
  | _, v => v

def SequenceType.project : SequenceType → List Json → Json
  | ⟨_, element, _, _⟩, items => .arr (items.map (projectElement element))

def projectElement : Option ModelType → Json → Json
  | some type, .obj data => type.project data
  | _, v => v
end

theorem projectElement_none (v : Json) : projectElement none v = v := by
  simp [projectElement]

/-- The check of the type accepts the value. -/
def ModelType.Accepts (type : ModelType) (v : Json) : Prop := ∃ canonical, type.check v = .ok canonical

/-- The check of the type accepts the value. -/
def SequenceType.Accepts (type : SequenceType) (v : Json) : Prop := ∃ canonical, type.check v = .ok canonical

namespace ModelType

variable {type : ModelType} {staged : List (Option FieldValue)} {m : Model}

/-- Without conversion the value of an instance is what was staged. -/
theorem toJson_of_commit (hv : (Blueprint.model type).IsVerbatim) (h : type.commit staged = .ok m) :
    m.toJson = .obj (snapshot type.fields staged) := by
  obtain ⟨hnames, hverbatim⟩ := hv
  obtain ⟨canonical, hcheck, rfl⟩ := commit_eq_ok.mp h
  have hcanonical : canonical = .obj (snapshot type.fields staged) := hverbatim hcheck
  have hmembers : mapTextMembers .verbatim (snapshot type.fields (adoptFields canonical type.fields staged)) =
      mapTextMembers .verbatim (snapshot type.fields staged) := by
    refine mapTextMembers_snapshot_adoptFields Coercion.isConversion_verbatim.settling _ _ fun name v hv => ?_
    rw [hcanonical]
    exact mapText_verbatim (Json.obj (snapshot type.fields staged)) ▸ get_mapText_snapshot hnames hv
  rw [mapTextMembers_verbatim, mapTextMembers_verbatim] at hmembers
  rw [Model.toJson, hmembers]

end ModelType

namespace SequenceType

variable {type : SequenceType} {staged : List (Option Element)} {s : Sequence}

theorem toJson_of_commit (hv : (Blueprint.sequence type).IsVerbatim) (h : type.commit staged = .ok s) :
    s.toJson = .arr (listing staged) := by
  obtain ⟨canonical, hcheck, rfl⟩ := commit_eq_ok.mp h
  have hcanonical : canonical = .arr (listing staged) := hv.verbatim hcheck
  have hitems := mapTextItems_listing_adoptElements Coercion.isConversion_verbatim.settling 0 staged
  rw [mapTextItems_verbatim, mapTextItems_verbatim] at hitems
  rw [Sequence.toJson, hcanonical]
  exact congrArg Json.arr hitems

end SequenceType

theorem lookup_projectFields_eq_none {fields : List Field} {name : String} (h : name ∉ fields.map Field.name)
    (data : List (String × Json)) : (projectFields fields data).lookup name = none := by
  induction fields with
  | nil => rfl
  | cons first rest ih =>
    rw [List.map_cons, List.mem_cons, not_or] at h
    rw [projectFields]
    cases data.lookup first.name with
    | none => exact ih h.2
    | some v =>
      rw [List.lookup_cons, beq_eq_false_iff_ne.mpr h.1]
      exact ih h.2

theorem lookup_projectFields {fields : List Field} (hn : (fields.map Field.name).Nodup)
    (data : List (String × Json)) {field : Field} (hf : field ∈ fields) :
    (projectFields fields data).lookup field.name = (data.lookup field.name).map field.kind.project := by
  induction fields with
  | nil => cases hf
  | cons first rest ih =>
    rw [List.map_cons, List.nodup_cons] at hn
    have hlater (hmem : field ∈ rest) : (field.name == first.name) = false := by
      rw [beq_eq_false_iff_ne]
      intro heq
      exact hn.1 (heq ▸ List.mem_map_of_mem hmem)
    obtain ⟨name, pointer, kind⟩ := first
    rw [projectFields]
    rcases List.mem_cons.mp hf with rfl | hmem
    · cases hlookup : data.lookup name with
      | none =>
        rw [Option.map_none, lookup_projectFields_eq_none hn.1]
      | some v => rw [List.lookup_cons, beq_self_eq_true, Field.project, Option.map_some]
    · cases data.lookup name with
      | none => exact ih hn.2 hmem
      | some v =>
        rw [List.lookup_cons, hlater hmem]
        exact ih hn.2 hmem

theorem names_projectFields_sublist (fields : List Field) (data : List (String × Json)) :
    ((projectFields fields data).map (·.1)).Sublist (fields.map Field.name) := by
  induction fields with
  | nil => exact .slnil
  | cons field rest ih =>
    rw [projectFields]
    cases data.lookup field.name with
    | none => exact .cons _ ih
    | some v => exact .cons_cons _ ih

mutual
/-- What a type takes of a value has distinct names if the value has. -/
theorem ModelType.hasDistinctNames_project : ∀ {type : ModelType} {data : List (String × Json)},
    type.Throughout Blueprint.IsVerbatim → (∀ member ∈ data, member.2.hasDistinctNames) →
      (type.project data).hasDistinctNames
  | ⟨id, title, fields, validator, options'⟩, data, hv, hdata => by
    obtain ⟨⟨hnames, _⟩, hfields⟩ := ModelType.throughout_iff.mp hv
    rw [ModelType.project]
    exact hasDistinctNames_obj_iff.mpr
      ⟨(names_projectFields_sublist fields data).nodup hnames, hasDistinctNames_projectFields hfields hdata⟩

theorem hasDistinctNames_projectFields : ∀ {fields : List Field} {data : List (String × Json)},
    (∀ field ∈ fields, field.kind.Throughout Blueprint.IsVerbatim) → (∀ member ∈ data, member.2.hasDistinctNames) →
      ∀ member ∈ projectFields fields data, member.2.hasDistinctNames
  | [], data, _, _ => by simp [projectFields]
  | field :: fields, data, hv, hdata => by
    obtain ⟨hfirst, hfields⟩ := List.forall_mem_cons.mp hv
    rw [projectFields]
    have hrest := hasDistinctNames_projectFields hfields hdata
    cases hlookup : data.lookup field.name with
    | none => exact hrest
    | some v =>
      exact List.forall_mem_cons.mpr ⟨Field.hasDistinctNames_project hfirst (hdata _ (mem_of_lookup hlookup)), hrest⟩

theorem Field.hasDistinctNames_project : ∀ {field : Field} {v : Json}, field.kind.Throughout Blueprint.IsVerbatim →
    v.hasDistinctNames → (field.project v).hasDistinctNames
  | ⟨name, pointer, kind⟩, v, hv, hdistinct => by
    rw [Field.project]
    exact FieldKind.hasDistinctNames_project hv hdistinct

theorem FieldKind.hasDistinctNames_project : ∀ {kind : FieldKind} {v : Json}, kind.Throughout Blueprint.IsVerbatim →
    v.hasDistinctNames → (kind.project v).hasDistinctNames
  | .object type, v, hv, hdistinct => by
    rw [FieldKind.throughout_object] at hv
    cases v with
    | obj data =>
      rw [FieldKind.project]
      exact ModelType.hasDistinctNames_project hv (hasDistinctNames_obj_iff.mp hdistinct).2
    | _ => exact hdistinct
  | .array type, v, hv, hdistinct => by
    rw [FieldKind.throughout_array] at hv
    cases v with
    | arr items =>
      rw [FieldKind.project]
      exact SequenceType.hasDistinctNames_project hv (hasDistinctNames_arr_iff.mp hdistinct)
    | _ => exact hdistinct
  | .scalar, v, _, hdistinct
  | .union, v, _, hdistinct => by
    rw [FieldKind.project]
    · exact hdistinct
    all_goals nofun

theorem SequenceType.hasDistinctNames_project : ∀ {type : SequenceType} {items : List Json},
    type.Throughout Blueprint.IsVerbatim → (∀ v ∈ items, v.hasDistinctNames) → (type.project items).hasDistinctNames
  | ⟨id, element, validator, options'⟩, items, hv, hitems => by
    rw [SequenceType.project]
    refine hasDistinctNames_arr_iff.mpr fun projected hmem => ?_
    obtain ⟨v, hv', rfl⟩ := List.mem_map.mp hmem
    exact hasDistinctNames_projectElement (SequenceType.throughout_iff.mp hv).2 (hitems v hv')

theorem hasDistinctNames_projectElement : ∀ {element : Option ModelType} {v : Json},
    elementThroughout Blueprint.IsVerbatim element → v.hasDistinctNames → (projectElement element v).hasDistinctNames
  | some type, v, hv, hdistinct => by
    rw [elementThroughout_some] at hv
    cases v with
    | obj data =>
      rw [projectElement]
      exact ModelType.hasDistinctNames_project hv (hasDistinctNames_obj_iff.mp hdistinct).2
    | _ => exact hdistinct
  | none, v, _, hdistinct => by
    rw [projectElement_none]
    exact hdistinct
end

section Building

theorem listing_map_some (elements : List Element) :
    listing (elements.map some) = elements.map Element.toJson := by
  induction elements with
  | nil => rfl
  | cons e rest ih => rw [List.map_cons, List.map_cons, listing, ih]

mutual
/-- Without conversion the value of an instance is what its type takes of the value that it was made from. -/
theorem ModelType.toJson_eq_of_build :
    ∀ {type : ModelType} {data : List (String × Json)} {m : Model}, type.Throughout Blueprint.IsVerbatim →
      type.build data = .ok m → m.toJson = type.project data
  | ⟨id, title, fields, validator, options'⟩, data, m, hv, h => by
    obtain ⟨staged, hstaged, hcommit⟩ := ModelType.build_eq_ok.mp h
    obtain ⟨hself, hfields⟩ := ModelType.throughout_iff.mp hv
    rw [ModelType.toJson_of_commit hself hcommit, ModelType.project,
      snapshot_of_buildFields hfields hstaged]

theorem snapshot_of_buildFields :
    ∀ {fields : List Field} {data : List (String × Json)} {staged : List (Option FieldValue)},
      (∀ field ∈ fields, field.kind.Throughout Blueprint.IsVerbatim) → buildFields fields data = .ok staged →
      snapshot fields staged = projectFields fields data
  | [], data, staged, hv, h => by rw [snapshot, projectFields] <;> nofun
  | field :: fields, data, staged, hv, h => by
    obtain ⟨hfirst, hfields⟩ := List.forall_mem_cons.mp hv
    obtain ⟨slot, rest, hslot, hrest, rfl⟩ := buildFields_cons_eq_ok.mp h
    have hsame := snapshot_of_buildFields hfields hrest
    cases hlookup : data.lookup field.name with
    | none =>
      rw [hlookup] at hslot
      obtain rfl := Except.ok.inj hslot
      rw [snapshot, projectFields, hlookup, hsame]
    | some v =>
      rw [hlookup] at hslot
      obtain ⟨value, hvalue, rfl⟩ := map_eq_ok.mp hslot
      rw [snapshot, projectFields, hlookup, hsame, Field.toJson_of_build hfirst hvalue]

theorem Field.toJson_of_build :
    ∀ {field : Field} {v : Json} {value : FieldValue}, field.kind.Throughout Blueprint.IsVerbatim →
      field.build v = .ok value → value.toJson = field.project v
  | ⟨name, pointer, kind⟩, v, value, hv, h => by
    rw [Field.build, mapError_eq_ok] at h
    rw [Field.project]
    exact FieldKind.toJson_of_build hv h

theorem FieldKind.toJson_of_build :
    ∀ {kind : FieldKind} {v : Json} {value : FieldValue}, kind.Throughout Blueprint.IsVerbatim →
      kind.build v = .ok value → value.toJson = kind.project v
  | .object type, v, value, hv, h => by
    rw [FieldKind.throughout_object] at hv
    cases v with
    | obj data =>
      rw [FieldKind.build] at h
      obtain ⟨m, hm, rfl⟩ := map_eq_ok.mp h
      rw [FieldValue.toJson, FieldKind.project, ModelType.toJson_eq_of_build hv hm]
    | _ =>
      obtain rfl : FieldValue.plain _ = value := by simpa [FieldKind.build] using h
      rfl
  | .array type, v, value, hv, h => by
    rw [FieldKind.throughout_array] at hv
    cases v with
    | arr items =>
      rw [FieldKind.build] at h
      obtain ⟨s, hs, rfl⟩ := map_eq_ok.mp h
      rw [FieldValue.toJson, FieldKind.project, SequenceType.toJson_eq_of_build hv hs]
    | _ =>
      obtain rfl : FieldValue.plain _ = value := by simpa [FieldKind.build] using h
      rfl
  | .scalar, v, value, hv, h
  | .union, v, value, hv, h => by
    obtain rfl : FieldValue.plain v = value := by simpa [FieldKind.build] using h
    rfl

theorem SequenceType.toJson_eq_of_build :
    ∀ {type : SequenceType} {items : List Json} {s : Sequence}, type.Throughout Blueprint.IsVerbatim →
      type.build items = .ok s → s.toJson = type.project items
  | ⟨id, element, validator, options'⟩, items, s, hv, h => by
    obtain ⟨elements, helements, hcommit⟩ := SequenceType.build_eq_ok_iff_forall₂.mp h
    obtain ⟨hself, helement⟩ := SequenceType.throughout_iff.mp hv
    have hall := map_eq_map_of_forall₂ (helements.imp fun v e he => toJson_of_buildElement helement he)
    rw [SequenceType.toJson_of_commit hself hcommit, SequenceType.project, listing_map_some, hall]

theorem toJson_of_buildElement :
    ∀ {element : Option ModelType} {v : Json} {e : Element}, elementThroughout Blueprint.IsVerbatim element →
      buildElement element v = .ok e → e.toJson = projectElement element v
  | some type, v, e, hv, h => by
    rw [elementThroughout_some] at hv
    cases v with
    | obj data =>
      rw [buildElement] at h
      obtain ⟨m, hm, rfl⟩ := map_eq_ok.mp h
      rw [Element.toJson, projectElement, ModelType.toJson_eq_of_build hv hm]
    | _ =>
      obtain rfl : Element.plain _ = e := by simpa [buildElement] using h
      rfl
  | none, v, e, hv, h => by
    obtain rfl : Element.plain v = e := by simpa [buildElement] using h
    rfl
end

variable {judge : Json → Json → List Violation} {options : Options}

theorem ModelType.toJson_of_build (hc : options.coerce = false) {type : ModelType} {data : List (String × Json)}
    {m : Model} (hchecked : type.IsChecked judge options) (h : type.build data = .ok m) :
    m.toJson = type.project data :=
  ModelType.toJson_eq_of_build (hchecked.isVerbatim hc) h

theorem SequenceType.toJson_of_build (hc : options.coerce = false) {type : SequenceType} {items : List Json}
    {s : Sequence} (hchecked : type.IsChecked judge options) (h : type.build items = .ok s) :
    s.toJson = type.project items :=
  SequenceType.toJson_eq_of_build (hchecked.isVerbatim hc) h

theorem ModelType.project_eq (type : ModelType) (data : List (String × Json)) :
    type.project data = .obj (projectFields type.fields data) := by
  obtain ⟨id, title, fields, validator, options'⟩ := type
  rw [project]

theorem SequenceType.project_eq (type : SequenceType) (items : List Json) :
    type.project items = .arr (items.map (projectElement type.element)) := by
  obtain ⟨id, element, validator, options'⟩ := type
  rw [project]

theorem exists_buildFields_iff {fields : List Field} {data : List (String × Json)} :
    (∃ staged, buildFields fields data = .ok staged) ↔
      ∀ field ∈ fields, ∀ v, data.lookup field.name = some v → ∃ value, field.kind.build v = .ok value := by
  induction fields with
  | nil => simp [buildFields]
  | cons field fields ih =>
    obtain ⟨name, pointer, kind⟩ := field
    have hrest (value : Option FieldValue) :
        (∃ staged, List.cons value <$> buildFields fields data = .ok staged) ↔
          ∃ staged, buildFields fields data = .ok staged := by
      cases buildFields fields data <;> simp [Functor.map, Except.map]
    rw [List.forall_mem_cons, ← ih, buildFields]
    cases hlookup : data.lookup name with
    | none => simp [hrest]
    | some v =>
      simp only [bind_eq_ok, Field.build, mapError_eq_ok, bind_pure_comp, Option.some.injEq, forall_eq']
      rw [exists_comm]
      simp only [exists_and_left, hrest, exists_and_right]

variable {type : ModelType} {data : List (String × Json)}

/-- An instance can be made of an object exactly if something can be made of every member that a field is for, and
the type accepts what it takes of the object. -/
theorem ModelType.exists_build_iff (hv : type.Throughout Blueprint.IsVerbatim) :
    (∃ m, type.build data = .ok m) ↔
      (∀ field ∈ type.fields, ∀ v, data.lookup field.name = some v → ∃ value, field.kind.build v = .ok value) ∧
        type.Accepts (type.project data) := by
  have hfields := (throughout_iff.mp hv).2
  have hcommit (staged : List (Option FieldValue)) (hstaged : buildFields type.fields data = .ok staged) :
      (∃ m, type.commit staged = .ok m) ↔ type.Accepts (type.project data) := by
    rw [project_eq, ← snapshot_of_buildFields hfields hstaged]
    simp [commit_eq_ok, Accepts]
  rw [← exists_buildFields_iff]
  simp only [build_eq_ok]
  constructor
  · rintro ⟨m, staged, hstaged, hm⟩
    exact ⟨⟨staged, hstaged⟩, (hcommit staged hstaged).mp ⟨m, hm⟩⟩
  · rintro ⟨⟨staged, hstaged⟩, haccepts⟩
    obtain ⟨m, hm⟩ := (hcommit staged hstaged).mpr haccepts
    exact ⟨m, staged, hstaged, hm⟩

/-- The same for arrays. -/
theorem SequenceType.exists_build_iff {type : SequenceType} {items : List Json}
    (hv : type.Throughout Blueprint.IsVerbatim) :
    (∃ s, type.build items = .ok s) ↔
      (∀ v ∈ items, ∃ e, buildElement type.element v = .ok e) ∧ type.Accepts (type.project items) := by
  have hcommit (elements : List Element)
      (helements : List.Forall₂ (fun v e => buildElement type.element v = .ok e) items elements) :
      (∃ s, type.commit (elements.map some) = .ok s) ↔ type.Accepts (type.project items) := by
    have helement := (throughout_iff.mp hv).2
    have hall := map_eq_map_of_forall₂ (helements.imp fun v e he => toJson_of_buildElement helement he)
    rw [project_eq, ← hall, ← listing_map_some]
    simp [commit_eq_ok, Accepts]
  rw [← exists_forall₂_iff]
  simp only [build_eq_ok_iff_forall₂]
  constructor
  · rintro ⟨s, elements, helements, hs⟩
    exact ⟨⟨elements, helements⟩, (hcommit elements helements).mp ⟨s, hs⟩⟩
  · rintro ⟨⟨elements, helements⟩, haccepts⟩
    obtain ⟨s, hs⟩ := (hcommit elements helements).mpr haccepts
    exact ⟨s, elements, helements, hs⟩

end Building
end SchemaBound
