import SchemaBound.Proofs.Instance.Projection

/-! Making an instance of an object reads its declared members and nothing else: neither their order nor members
that are not declared matter, at any depth, to what is made or to why it is refused. -/
namespace SchemaBound
open Json Success

mutual
/-- Making an instance of what the type takes of an object is making one of the object. -/
theorem ModelType.build_project : ∀ {type : ModelType} (data : List (String × Json)),
    type.Throughout Blueprint.HasDistinctNames → type.build (projectFields type.fields data) = type.build data
  | ⟨id, title, fields, validator, options⟩, data, hd => by
    obtain ⟨hnames, hkinds⟩ := ModelType.throughout_iff.mp hd
    have hlookup (field : Field) (hfield : field ∈ fields) :
        (projectFields fields data).lookup field.name = (data.lookup field.name).map field.kind.project :=
      lookup_projectFields hnames data hfield
    rw [ModelType.build, ModelType.build, buildFields_project hkinds hlookup]

theorem buildFields_project : ∀ {fields : List Field} {data projected : List (String × Json)},
    (∀ field ∈ fields, field.kind.Throughout Blueprint.HasDistinctNames) →
    (∀ field ∈ fields, projected.lookup field.name = (data.lookup field.name).map field.kind.project) →
    buildFields fields projected = buildFields fields data
  | [], data, projected, hd, hlookup => by rw [buildFields, buildFields]
  | field :: fields, data, projected, hd, hlookup => by
    obtain ⟨hkind, hkinds⟩ := List.forall_mem_cons.mp hd
    obtain ⟨hhere, hrest⟩ := List.forall_mem_cons.mp hlookup
    rw [buildFields, buildFields, hhere, buildFields_project hkinds hrest]
    cases data.lookup field.name with
    | none => rfl
    | some v =>
      rw [Option.map_some]
      dsimp only
      rw [Field.build_project v hkind]

theorem Field.build_project : ∀ {field : Field} (v : Json), field.kind.Throughout Blueprint.HasDistinctNames →
    field.build (field.kind.project v) = field.build v
  | ⟨name, pointer, kind⟩, v, hd => by
    rw [Field.build, Field.build, FieldKind.build_project v hd]

theorem FieldKind.build_project : ∀ {kind : FieldKind} (v : Json), kind.Throughout Blueprint.HasDistinctNames →
    kind.build (kind.project v) = kind.build v
  | .object type, v, hd => by
    rw [FieldKind.throughout_object] at hd
    cases v with
    | obj data => rw [FieldKind.project, ModelType.project_eq, FieldKind.build, FieldKind.build,
        ModelType.build_project data hd]
    | _ => rfl
  | .array type, v, hd => by
    rw [FieldKind.throughout_array] at hd
    cases v with
    | arr items => rw [FieldKind.project, SequenceType.project_eq, FieldKind.build, FieldKind.build,
        SequenceType.build_project items hd]
    | _ => rfl
  | .scalar, v, hd
  | .union, v, hd => rfl

theorem SequenceType.build_project : ∀ {type : SequenceType} (items : List Json),
    type.Throughout Blueprint.HasDistinctNames →
    type.build (items.map (projectElement type.element)) = type.build items
  | ⟨id, element, validator, options⟩, items, hd => by
    obtain ⟨_, helement⟩ := SequenceType.throughout_iff.mp hd
    have helements : ∀ v, buildElement element (projectElement element v) = buildElement element v :=
      fun v => buildElement_project v helement
    rw [SequenceType.build, SequenceType.build, List.zipIdx_map, List.mapM_map]
    simp only [Function.comp_def, Prod.map_fst, Prod.map_snd, id_eq, helements]

theorem buildElement_project : ∀ {element : Option ModelType} (v : Json),
    elementThroughout Blueprint.HasDistinctNames element →
    buildElement element (projectElement element v) = buildElement element v
  | some type, v, hd => by
    rw [elementThroughout_some] at hd
    cases v with
    | obj data => rw [projectElement, ModelType.project_eq, buildElement, buildElement,
        ModelType.build_project data hd]
    | _ => rfl
  | none, v, hd => by
    rw [projectElement_none]
end

/-- The type takes the same of two objects whose members it takes the same of, name by name. -/
theorem projectFields_congr {fields : List Field} {data other : List (String × Json)}
    (h : ∀ field ∈ fields,
      (data.lookup field.name).map field.kind.project = (other.lookup field.name).map field.kind.project) :
    projectFields fields data = projectFields fields other := by
  induction fields with
  | nil => rfl
  | cons field rest ih =>
    obtain ⟨hhere, hrest⟩ := List.forall_mem_cons.mp h
    obtain ⟨name, pointer, kind⟩ := field
    rw [projectFields, projectFields, ih hrest]
    dsimp only at hhere ⊢
    cases hdata : data.lookup name with
    | none =>
      rw [hdata, Option.map_none, eq_comm, Option.map_eq_none_iff] at hhere
      rw [hhere]
    | some v =>
      rw [hdata, Option.map_some, eq_comm, Option.map_eq_some_iff] at hhere
      obtain ⟨w, hw, hsame⟩ := hhere
      rw [hw]
      simp only [Field.project, hsame]

/-- What a type takes of a value: the declared members of an object, or of each object in an array, in the order
of declaration, and the same inside them. Any other value is taken as it is. -/
def Blueprint.project : Blueprint → Json → Json
  | .model type => (FieldKind.object type).project
  | .sequence type => (FieldKind.array type).project

theorem ModelType.create_project {type : ModelType} (hd : type.Throughout Blueprint.HasDistinctNames) (v : Json) :
    type.create ((Blueprint.model type).project v) = type.create v := by
  cases v with
  | obj data =>
    rw [Blueprint.project, FieldKind.project, ModelType.project_eq]
    exact ModelType.build_project data hd
  | _ => rfl

/-- For every engine, making an instance depends on what the type takes of the value and on nothing else, whether
an instance is made or an error is reported. If moreover the engine leaves accepted values as they are, an instance
has exactly the value that its type takes, when it is made and when its content is exchanged. -/
theorem Schema.create_eq_create_project (schema : Schema) (hd : schema.document.hasDistinctNames) (number : Nat)
    (engine : Engine) (options : Options) {root : Blueprint}
    (hroot : schema.CompilesTo number engine options root) :
    (∀ type, root.Reaches (.model type) →
      (∀ v, type.create v = type.create ((Blueprint.model type).project v)) ∧
      (∀ data other, (∀ field ∈ type.fields,
          (data.lookup field.name).map field.kind.project = (other.lookup field.name).map field.kind.project) →
        type.create (.obj data) = type.create (.obj other)) ∧
      (engine.IsVerbatim options →
        (∀ data m, type.create (.obj data) = .ok m → m.toJson = (Blueprint.model type).project (.obj data)) ∧
        ∀ (m : Model) v after, m.type = type → m.setData v = .ok after →
          after.toJson = (Blueprint.model type).project v)) ∧
    ∀ type, root.Reaches (.sequence type) →
      (∀ items, type.create items = type.create (items.map (projectElement type.element))) ∧
      (∀ items others, items.map (projectElement type.element) = others.map (projectElement type.element) →
        type.create items = type.create others) ∧
      (engine.IsVerbatim options → ∀ items s, type.create items = .ok s →
        s.toJson = (Blueprint.sequence type).project (.arr items)) := by
  have hfrom := hroot.comesFrom hd
  constructor
  · intro type htype
    have hhere : type.Throughout (Blueprint.ComesFrom engine options) := hfrom.reached htype
    have hnames := hhere.mono fun _ h => h.names
    refine ⟨fun v => (ModelType.create_project hnames v).symm, fun data other hsame => ?_, fun hv => ?_⟩
    · have hproject : (Blueprint.model type).project (.obj data) = (Blueprint.model type).project (.obj other) := by
        simp only [Blueprint.project, FieldKind.project, ModelType.project_eq, projectFields_congr hsame]
      rw [← ModelType.create_project hnames (.obj data), hproject, ModelType.create_project hnames (.obj other)]
    · have hverbatim := hhere.mono fun _ h => h.isVerbatim hv
      refine ⟨fun data m hm => ModelType.toJson_eq_of_build hverbatim hm, ?_⟩
      rintro m v after rfl hafter
      unfold Model.setData at hafter
      split at hafter
      · exact ModelType.toJson_eq_of_build hverbatim hafter
      · cases hafter
  · intro type htype
    have hhere : type.Throughout (Blueprint.ComesFrom engine options) := hfrom.reached htype
    have hnames := hhere.mono fun _ h => h.names
    have hcreate (items : List Json) : type.create (items.map (projectElement type.element)) = type.create items :=
      SequenceType.build_project items hnames
    refine ⟨fun items => (hcreate items).symm, fun items others hsame => ?_, fun hv items s hs => ?_⟩
    · rw [← hcreate items, hsame, hcreate others]
    · exact SequenceType.toJson_eq_of_build (hhere.mono fun _ h => h.isVerbatim hv) hs

section Samples

/-- A schema of some value, an object and a list of objects. -/
def recordAndList : Schema := ⟨.obj [
  ("properties", .obj [
    ("a", .obj []),
    ("n", .obj [("properties", .obj [("x", .obj []), ("y", .obj [])])]),
    ("l", .obj [("items", .obj [("properties", .obj [("x", .obj [])])])])])]⟩

private def disorderedItem : Json := .obj [("v", .null), ("x", .num (.int 2))]

private def disorderedRecord : Json := .obj [
  ("l", .arr [disorderedItem]), ("z", .null),
  ("n", .obj [("y", .num (.int 4)), ("w", .null), ("x", .num (.int 3))]), ("a", .num (.int 1))]

private def orderedRecord : Json := .obj [
  ("a", .num (.int 1)), ("n", .obj [("x", .num (.int 3)), ("y", .num (.int 4))]),
  ("l", .arr [.obj [("x", .num (.int 2))]])]

/-- Members in another order and members that are not declared, at three places, change nothing of what is made
nor of what is stored. -/
theorem create_eq_create_project_disordered :
    ∃ type inner m after, recordAndList.compileModel 0 Engine.draft7 .strict = .ok type ∧
      (Blueprint.model type).follow? ["l"] = some (.sequence inner) ∧
      type.create disorderedRecord = .ok m ∧ type.create orderedRecord = .ok m ∧ m.toJson = orderedRecord ∧
      type.empty.setData disorderedRecord = .ok after ∧ after.toJson = orderedRecord ∧
      inner.create [disorderedItem] = inner.create [.obj [("x", .num (.int 2))]] := by
  have hrun : yields (recordAndList.compileModel 0 Engine.draft7 .strict) fun type =>
      (yields (type.create disorderedRecord) fun _ =>
        (Blueprint.model type).project disorderedRecord = orderedRecord) &&
      (yields (type.empty.setData disorderedRecord) fun _ => true) &&
      match (Blueprint.model type).follow? ["l"] with
      | some (.sequence inner) =>
        [disorderedItem].map (projectElement inner.element) = [Json.obj [("x", .num (.int 2))]]
      | some (.model _) => false
      | none => false := by decide +kernel
  obtain ⟨type, htype, hrun⟩ := exists_of_yields hrun
  obtain ⟨hrun, hlist⟩ := Bool.and_eq_true_iff.mp hrun
  obtain ⟨hcreate, hset⟩ := Bool.and_eq_true_iff.mp hrun
  obtain ⟨m, hm, hproject⟩ := exists_of_yields hcreate
  obtain ⟨after, hafter, _⟩ := exists_of_yields hset
  have hcompiles : recordAndList.CompilesTo 0 Engine.draft7 .strict (.model type) := htype
  have hall := Schema.create_eq_create_project recordAndList (by decide) 0 Engine.draft7 .strict hcompiles
  obtain ⟨hsame, _, hvalue⟩ := hall.1 type .refl
  obtain ⟨hmade, hstored⟩ := hvalue (Engine.isVerbatim_draft7 rfl)
  replace hproject : (Blueprint.model type).project disorderedRecord = orderedRecord := of_decide_eq_true hproject
  split at hlist
  · rename_i inner hinner
    have hitems := (hall.2 inner (Blueprint.reaches_of_follow hinner)).1 [disorderedItem]
    rw [of_decide_eq_true hlist] at hitems
    refine ⟨type, inner, m, after, htype, hinner, hm, ?_, ?_, hafter, ?_, hitems⟩
    · rw [← hproject, ← hsame, hm]
    · rw [hmade _ m hm, ← disorderedRecord, hproject]
    · rw [hstored _ _ after rfl hafter, hproject]
  · cases hlist
  · cases hlist

end Samples
end SchemaBound
