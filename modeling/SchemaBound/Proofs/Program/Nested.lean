import SchemaBound.Proofs.Blueprint.Descent
import SchemaBound.Proofs.Check.Ending
import SchemaBound.Proofs.Instance.Projection

/-! When a nested instance can fail: only where the whole value is refused, or at an element that the schema of its
array says nothing about. -/
namespace SchemaBound
open Success

mutual
/-- Pointers to the nodes of the type and of all types in it. -/
def ModelType.pointers : ModelType → List String
  | ⟨id, _, fields, _, _⟩ => id.pointer :: pointersInside fields

def pointersInside : List Field → List String
  | [] => []
  | field :: fields => field.pointers ++ pointersInside fields

def Field.pointers : Field → List String
  | ⟨_, _, kind⟩ => kind.pointers

def FieldKind.pointers : FieldKind → List String
  | .object type => type.pointers
  | .array type => type.pointers
  | .scalar | .union => []

def SequenceType.pointers : SequenceType → List String
  | ⟨id, element, _, _⟩ => id.pointer :: elementPointers element

def elementPointers : Option ModelType → List String
  | none => []
  | some type => type.pointers
end

mutual
/-- Objects in arrays whose nodes state no rule for the position, each with the type of elements. -/
def ModelType.strays (document : Json) : ModelType → List (String × Json) → List (ModelType × List (String × Json))
  | ⟨_, _, fields, _, _⟩, data => straysInside document fields data

/-- Those in the members that fields are for. -/
def straysInside (document : Json) :
    List Field → List (String × Json) → List (ModelType × List (String × Json))
  | [], _ => []
  | field :: fields, data =>
    (match data.lookup field.name with
      | none => []
      | some v => field.strays document v) ++ straysInside document fields data

def Field.strays (document : Json) : Field → Json → List (ModelType × List (String × Json))
  | ⟨_, _, kind⟩, v => kind.strays document v

def FieldKind.strays (document : Json) : FieldKind → Json → List (ModelType × List (String × Json))
  | .object type, .obj data => type.strays document data
  | .array type, .arr items => type.strays document items
  | _, _ => []

def SequenceType.strays (document : Json) :
    SequenceType → List Json → List (ModelType × List (String × Json))
  | ⟨id, element, _, _⟩, items => items.zipIdx.flatMap fun (v, i) =>
    strayElements document ((document.at? id.pointer).any (Elements.rulesAt · i)) element v

/-- An object that no rule is stated for, or else those in it. -/
def strayElements (document : Json) (ruled : Bool) :
    Option ModelType → Json → List (ModelType × List (String × Json))
  | some type, .obj data => if ruled then type.strays document data else [(type, data)]
  | _, _ => []
end

/-- Each of the objects makes an instance of its type. -/
def CanBeMade (strays : List (ModelType × List (String × Json))) : Prop :=
  ∀ stray ∈ strays, ∃ m, stray.1.create (.obj stray.2) = .ok m

/-- The nodes at the pointers are portable, as far as the value goes. -/
def ArePortable {Context : Type} (I : Interpretation Context) (document : Json) (options : Options)
    (pointers : List String) (v : Json) : Prop :=
  ∀ pointer ∈ pointers, ∀ node, document.at? pointer = some node →
    Place.IsPortable I document options ⟨pointer, node⟩ v

theorem canBeMade_append {first second : List (ModelType × List (String × Json))} :
    CanBeMade (first ++ second) ↔ CanBeMade first ∧ CanBeMade second := by
  simp [CanBeMade, or_imp, forall_and]

/-- As far as a part of the value goes, they are as well. -/
theorem ArePortable.inside {Context : Type} {I : Interpretation Context} {document : Json} {options : Options}
    {pointers others : List String} {v x : Json} (h : ArePortable I document options pointers v)
    (hothers : ∀ pointer ∈ others, pointer ∈ pointers) (hx : x.IsPartOf v) :
    ArePortable I document options others x := by
  intro pointer hpointer node hnode
  obtain ⟨hfaithful, hends⟩ := h pointer (hothers pointer hpointer) node hnode
  exact ⟨hfaithful, fun part hpart => hends part (hpart.trans hx)⟩

theorem mem_pointersInside {fields : List Field} {field : Field} (hf : field ∈ fields) {pointer : String}
    (hpointer : pointer ∈ field.pointers) : pointer ∈ pointersInside fields := by
  induction fields with
  | nil => cases hf
  | cons first rest ih =>
    rw [pointersInside, List.mem_append]
    rcases List.mem_cons.mp hf with rfl | hf
    · exact .inl hpointer
    · exact .inr (ih hf)

section Making

variable {document : Json}

mutual
/-- Where an instance is made of an object, instances are made of all objects in it that no rule is stated for. -/
theorem ModelType.canBeMade_strays : ∀ {type : ModelType} {data : List (String × Json)} {m : Model},
    type.build data = .ok m → CanBeMade (type.strays document data)
  | ⟨id, title, fields, validator, options⟩, data, m, h => by
    obtain ⟨staged, hstaged, _⟩ := ModelType.build_eq_ok.mp h
    rw [ModelType.strays]
    exact canBeMade_straysInside hstaged

theorem canBeMade_straysInside : ∀ {fields : List Field} {data : List (String × Json)}
    {staged : List (Option FieldValue)}, buildFields fields data = .ok staged →
      CanBeMade (straysInside document fields data)
  | [], data, staged, h => by
    rw [straysInside]
    exact fun _ hstray => nomatch hstray
  | field :: fields, data, staged, h => by
    rw [straysInside, canBeMade_append]
    obtain ⟨slot, rest, hslot, hrest, _⟩ := buildFields_cons_eq_ok.mp h
    refine ⟨?_, canBeMade_straysInside hrest⟩
    cases hlookup : data.lookup field.name with
    | none => exact fun _ hstray => nomatch hstray
    | some v =>
      rw [hlookup] at hslot
      obtain ⟨value, hvalue, _⟩ := map_eq_ok.mp hslot
      exact Field.canBeMade_strays hvalue

theorem Field.canBeMade_strays : ∀ {field : Field} {v : Json} {value : FieldValue},
    field.build v = .ok value → CanBeMade (field.strays document v)
  | ⟨name, pointer, kind⟩, v, value, h => by
    rw [Field.build, mapError_eq_ok] at h
    rw [Field.strays]
    exact FieldKind.canBeMade_strays h

theorem FieldKind.canBeMade_strays : ∀ {kind : FieldKind} {v : Json} {value : FieldValue},
    kind.build v = .ok value → CanBeMade (kind.strays document v)
  | .object type, v, value, h => by
    cases v with
    | obj data =>
      rw [FieldKind.build] at h
      obtain ⟨m, hm, _⟩ := map_eq_ok.mp h
      rw [FieldKind.strays]
      exact ModelType.canBeMade_strays hm
    | _ => exact fun _ hstray => nomatch hstray
  | .array type, v, value, h => by
    cases v with
    | arr items =>
      rw [FieldKind.build] at h
      obtain ⟨s, hs, _⟩ := map_eq_ok.mp h
      rw [FieldKind.strays]
      exact SequenceType.canBeMade_strays hs
    | _ => exact fun _ hstray => nomatch hstray
  | .scalar, v, value, h
  | .union, v, value, h => fun _ hstray => nomatch hstray

theorem SequenceType.canBeMade_strays : ∀ {type : SequenceType} {items : List Json} {s : Sequence},
    type.build items = .ok s → CanBeMade (type.strays document items)
  | ⟨id, element, validator, options⟩, items, s, h => by
    obtain ⟨elements, helements, _⟩ := SequenceType.build_eq_ok.mp h
    rw [SequenceType.strays]
    intro stray hstray
    obtain ⟨⟨v, i⟩, hmem, hstray⟩ := List.mem_flatMap.mp hstray
    obtain ⟨e, _, hbuild⟩ := exists_result_of_mem helements hmem
    exact canBeMade_strayElements (mapError_eq_ok.mp hbuild) stray hstray

theorem canBeMade_strayElements : ∀ {element : Option ModelType} {v : Json} {e : Element} {ruled : Bool},
    buildElement element v = .ok e → CanBeMade (strayElements document ruled element v)
  | some type, v, e, ruled, h => by
    cases v with
    | obj data =>
      rw [buildElement] at h
      obtain ⟨m, hm, _⟩ := map_eq_ok.mp h
      rw [strayElements]
      split
      · exact ModelType.canBeMade_strays hm
      · intro stray hstray
        obtain rfl := List.mem_singleton.mp hstray
        exact ⟨m, hm⟩
    | _ => exact fun _ hstray => nomatch hstray
  | none, v, e, ruled, h => fun _ hstray => nomatch hstray
end

end Making

section Judging

variable {Context : Type} {I : Interpretation Context} {inspect : Json → Except SchemaError Unit}
  {judge : Json → Json → List Violation} {job : Compilation} (h : I.IsDraft7 inspect judge)
  (he : job.engine = Engine.inspecting inspect judge) (hc : job.options.coerce = false)
  (hd : job.document.hasDistinctNames)
include h he hc hd

theorem IsHanded.exists_ok_of_isMet {place : Place} {shape : Shape} {pointer : String} {validator : Validator}
    {options : Options} (hhanded : IsHanded job place shape pointer validator options) {pointers : List String}
    {v : Json} (hportable : ArePortable I job.document job.options (pointer :: pointers) v)
    (hmet : place.IsMet I job.document job.options v) : ∃ canonical, validator options v = .ok canonical := by
  have hplace : Place.IsPortable I job.document job.options place v :=
    hportable place.pointer (hhanded.pointer_eq ▸ List.mem_cons_self) place.node (hhanded.reached.isAddressed hd)
  obtain ⟨_, _, _, _, hnode⟩ := id hmet
  exact (hhanded.exists_ok_iff h he hc hd hplace hnode.distinct).mpr hmet

-- The linter takes each theorem of the block by itself.
set_option linter.unusedSectionVars false in
mutual
/-- Where the place is met with what the type takes of an object, and instances can be made of the objects that no rule
is stated for, an instance can be made of the object. -/
theorem ModelType.IsFor.exists_build :
    ∀ {type : ModelType} {place : Place} {data : List (String × Json)}, type.IsFor job place →
      ArePortable I job.document job.options type.pointers (type.project data) →
      place.IsMet I job.document job.options (type.project data) →
      CanBeMade (type.strays job.document data) → ∃ m, type.build data = .ok m
  | ⟨id, title, fields, validator, options⟩, place, data, hfor, hportable, hmet, hstrays => by
    have hchecked := hfor.isChecked hd (he.trans (Engine.inspecting_eq_judging inspect judge))
    have hnames := (ModelType.isChecked_iff.mp hchecked).2.2.1
    rw [ModelType.IsFor] at hfor
    obtain ⟨hhanded, rules, hrules, hfields⟩ := hfor
    rw [ModelType.pointers] at hportable
    rw [ModelType.strays] at hstrays
    refine (ModelType.exists_build_iff (hchecked.isVerbatim hc)).mpr
      ⟨?_, hhanded.exists_ok_of_isMet h he hc hd hportable hmet⟩
    rw [ModelType.project] at hmet hportable
    have hmember {field : Field} (hf : field ∈ fields) {v : Json} (hv : data.lookup field.name = some v) :
        (projectFields fields data).lookup field.name = some (field.kind.project v) := by
      rw [lookup_projectFields hnames data hf, hv, Option.map_some]
    refine exists_build_of_fieldsAreFor hfields (fun field hf v hv => ?_) hstrays
      fun field hf rule hrule hname target hresolve v hv => ?_
    · have hpart : (field.kind.project v).IsPartOf (.obj (projectFields fields data)) :=
        .inr (Json.mem_contents_of_lookup (hmember hf hv))
      exact hportable.inside (fun pointer hp => List.mem_cons_of_mem _ (mem_pointersInside hf hp)) hpart
    have hmember := hname ▸ hmember hf hv
    exact hmet.field h (hhanded.reached.hasDistinctNames hd) hhanded.hasShape hrules hrule hresolve hmember

theorem exists_build_of_fieldsAreFor :
    ∀ {place : Place} {fields : List Field} {rules : List (String × Json)} {data : List (String × Json)},
      fieldsAreFor job place fields rules →
      (∀ field ∈ fields, ∀ v, data.lookup field.name = some v →
        ArePortable I job.document job.options field.pointers (field.kind.project v)) →
      CanBeMade (straysInside job.document fields data) →
      (∀ field ∈ fields, ∀ rule ∈ rules, field.name = rule.1 → ∀ target,
        (Compilation.rulePlace place rule).resolve job.document = .ok target →
        ∀ v, data.lookup field.name = some v → target.IsMet I job.document job.options (field.kind.project v)) →
      ∀ field ∈ fields, ∀ v, data.lookup field.name = some v → ∃ value, field.kind.build v = .ok value
  | _, [], _, _, _, _, _, _ => fun _ hf => nomatch hf
  | _, _ :: _, [], _, hfor, _, _, _ => hfor.elim
  | place, field :: fields, rule :: rules, data, hfor, hportable, hstrays, hmet => by
    rw [fieldsAreFor] at hfor
    obtain ⟨hportable, hportables⟩ := List.forall_mem_cons.mp hportable
    rw [straysInside, canBeMade_append] at hstrays
    refine List.forall_mem_cons.mpr ⟨fun v hv => ?_, ?_⟩
    · have hfield : CanBeMade (field.strays job.document v) := by
        have hfirst := hstrays.1
        rwa [hv] at hfirst
      exact Field.IsFor.exists_build hfor.1 (hportable v hv) hfield fun hname target hresolve =>
        hmet field List.mem_cons_self rule List.mem_cons_self hname target hresolve v hv
    · exact exists_build_of_fieldsAreFor hfor.2 hportables hstrays.2
        fun field hf rule hrule => hmet field (List.mem_cons_of_mem _ hf) rule (List.mem_cons_of_mem _ hrule)

theorem Field.IsFor.exists_build :
    ∀ {place : Place} {field : Field} {rule : String × Json} {v : Json}, field.IsFor job place rule →
      ArePortable I job.document job.options field.pointers (field.kind.project v) →
      CanBeMade (field.strays job.document v) →
      (field.name = rule.1 → ∀ target, (Compilation.rulePlace place rule).resolve job.document = .ok target →
        target.IsMet I job.document job.options (field.kind.project v)) →
      ∃ value, field.kind.build v = .ok value
  | place, ⟨name, pointer, kind⟩, rule, v, hfor, hportable, hstrays, hmet => by
    rw [Field.IsFor] at hfor
    obtain ⟨hname, target, hresolve, hkind⟩ := hfor
    rw [Field.pointers] at hportable
    rw [Field.strays] at hstrays
    exact FieldKind.IsFor.exists_build hkind hportable (hmet hname target hresolve) hstrays

theorem FieldKind.IsFor.exists_build :
    ∀ {kind : FieldKind} {target : Place} {v : Json}, kind.IsFor job target →
      ArePortable I job.document job.options kind.pointers (kind.project v) →
      target.IsMet I job.document job.options (kind.project v) → CanBeMade (kind.strays job.document v) →
      ∃ value, kind.build v = .ok value
  | .object type, target, v, hfor, hportable, hmet, hstrays => by
    cases v with
    | obj data =>
      rw [FieldKind.IsFor] at hfor
      rw [FieldKind.pointers, FieldKind.project] at hportable
      rw [FieldKind.project] at hmet
      rw [FieldKind.strays] at hstrays
      obtain ⟨m, hm⟩ := ModelType.IsFor.exists_build hfor hportable hmet hstrays
      exact ⟨.model m, by rw [FieldKind.build, hm]; rfl⟩
    | _ => exact ⟨_, rfl⟩
  | .array type, target, v, hfor, hportable, hmet, hstrays => by
    cases v with
    | arr items =>
      rw [FieldKind.IsFor] at hfor
      rw [FieldKind.pointers, FieldKind.project] at hportable
      rw [FieldKind.project] at hmet
      rw [FieldKind.strays] at hstrays
      obtain ⟨s, hs⟩ := SequenceType.IsFor.exists_build hfor hportable hmet hstrays
      exact ⟨.sequence s, by rw [FieldKind.build, hs]; rfl⟩
    | _ => exact ⟨_, rfl⟩
  | .scalar, _, v, _, _, _, _
  | .union, _, v, _, _, _, _ => ⟨.plain v, by simp [FieldKind.build]⟩

theorem SequenceType.IsFor.exists_build :
    ∀ {type : SequenceType} {place : Place} {items : List Json}, type.IsFor job place →
      ArePortable I job.document job.options type.pointers (type.project items) →
      place.IsMet I job.document job.options (type.project items) →
      CanBeMade (type.strays job.document items) → ∃ s, type.build items = .ok s
  | ⟨id, element, validator, options⟩, place, items, hfor, hportable, hmet, hstrays => by
    have hchecked := hfor.isChecked hd (he.trans (Engine.inspecting_eq_judging inspect judge))
    rw [SequenceType.IsFor] at hfor
    obtain ⟨hhanded, object?, hobject, helement⟩ := hfor
    have haddressed := hhanded.reached.isAddressed hd
    rw [SequenceType.pointers] at hportable
    rw [SequenceType.strays] at hstrays
    refine (SequenceType.exists_build_iff (hchecked.isVerbatim hc)).mpr
      ⟨fun v hv => ?_, hhanded.exists_ok_of_isMet h he hc hd hportable hmet⟩
    obtain ⟨i, hi⟩ := List.getElem?_of_mem hv
    have hruled : (job.document.at? id.pointer).any (Elements.rulesAt · i) = Elements.rulesAt place.node i := by
      rw [hhanded.pointer_eq, haddressed, Option.any_some]
    have hinside : CanBeMade (strayElements job.document (Elements.rulesAt place.node i) element v) := by
      intro stray hstray
      refine hstrays stray (List.mem_flatMap.mpr ⟨(v, i), List.mem_zipIdx_iff_getElem?.mpr hi, ?_⟩)
      dsimp only
      rwa [hruled]
    rw [SequenceType.project] at hmet hportable
    have hpart : (projectElement element v).IsPartOf (.arr (items.map (projectElement element))) := by
      refine .inr ?_
      rw [Json.contents]
      exact Json.mem_itemContents (List.mem_map_of_mem hv)
    refine exists_buildElement_of_elementIsFor helement
      (hportable.inside (fun pointer hp => List.mem_cons_of_mem _ hp) hpart) hinside
      fun hrules object hsome data hdata => ?_
    have hitem : (items.map (projectElement element))[i]? = some (.obj data) := by
      rw [List.getElem?_map, hi, Option.map_some, hdata]
    subst hsome
    exact hmet.element h hd hhanded.reached hhanded.hasShape hobject hrules hitem

theorem exists_buildElement_of_elementIsFor :
    ∀ {element : Option ModelType} {object? : Option Place} {ruled : Bool} {v : Json},
      elementIsFor job element object? →
      ArePortable I job.document job.options (elementPointers element) (projectElement element v) →
      CanBeMade (strayElements job.document ruled element v) →
      (ruled → ∀ object, object? = some object → ∀ data, projectElement element v = .obj data →
        object.IsMet I job.document job.options (.obj data)) →
      ∃ e, buildElement element v = .ok e
  | none, _, _, v, _, _, _, _ => ⟨.plain v, by simp [buildElement]⟩
  | some type, none, _, _, hfor, _, _, _ => hfor.elim
  | some type, some object, ruled, v, hfor, hportable, hstrays, hmet => by
    cases v with
    | obj data =>
      rw [elementIsFor] at hfor
      rw [elementPointers] at hportable
      rw [strayElements] at hstrays
      have hmade : ∃ m, type.build data = .ok m := by
        cases ruled with
        | true =>
          have hproject : projectElement (some type) (.obj data) = .obj (projectFields type.fields data) := by
            rw [projectElement, ModelType.project_eq]
          have hobject := hmet rfl object rfl _ hproject
          rw [hproject, ← ModelType.project_eq] at hportable
          rw [← ModelType.project_eq] at hobject
          exact ModelType.IsFor.exists_build hfor hportable hobject hstrays
        | false => exact hstrays (type, data) List.mem_cons_self
      obtain ⟨m, hm⟩ := hmade
      exact ⟨.model m, by rw [buildElement, hm]; rfl⟩
    | _ => exact ⟨_, rfl⟩
end

theorem ModelType.IsFor.exists_build_iff {type : ModelType} {place : Place} (hfor : type.IsFor job place)
    {data : List (String × Json)} (hportable : ArePortable I job.document job.options type.pointers (type.project data))
    (hdata : (Json.obj data).hasDistinctNames) :
    (∃ m, type.build data = .ok m) ↔
      CanBeMade (type.strays job.document data) ∧ type.Accepts (type.project data) := by
  have hverbatim := (hfor.isChecked hd (he.trans (Engine.inspecting_eq_judging inspect judge))).isVerbatim hc
  constructor
  · rintro ⟨m, hm⟩
    exact ⟨ModelType.canBeMade_strays hm, ((ModelType.exists_build_iff hverbatim).mp ⟨m, hm⟩).2⟩
  · rintro ⟨hstrays, haccepts⟩
    have hhanded := hfor.isHanded
    have hmem : type.id.pointer ∈ type.pointers := by
      obtain ⟨id, title, fields, validator, options⟩ := type
      rw [ModelType.pointers]
      exact List.mem_cons_self
    have hplace := hportable _ (hhanded.pointer_eq ▸ hmem) place.node (hhanded.reached.isAddressed hd)
    have hproject := ModelType.hasDistinctNames_project hverbatim (Json.hasDistinctNames_obj_iff.mp hdata).2
    have hmet := (hhanded.exists_ok_iff h he hc hd hplace hproject).mp haccepts
    exact ModelType.IsFor.exists_build h he hc hd hfor hportable hmet hstrays

theorem SequenceType.IsFor.exists_build_iff {type : SequenceType} {place : Place} (hfor : type.IsFor job place)
    {items : List Json} (hportable : ArePortable I job.document job.options type.pointers (type.project items))
    (hitems : (Json.arr items).hasDistinctNames) :
    (∃ s, type.build items = .ok s) ↔
      CanBeMade (type.strays job.document items) ∧ type.Accepts (type.project items) := by
  have hverbatim := (hfor.isChecked hd (he.trans (Engine.inspecting_eq_judging inspect judge))).isVerbatim hc
  constructor
  · rintro ⟨s, hs⟩
    exact ⟨SequenceType.canBeMade_strays hs, ((SequenceType.exists_build_iff hverbatim).mp ⟨s, hs⟩).2⟩
  · rintro ⟨hstrays, haccepts⟩
    have hhanded := hfor.isHanded
    have hmem : type.id.pointer ∈ type.pointers := by
      obtain ⟨id, title, fields, validator, options⟩ := type
      rw [SequenceType.pointers]
      exact List.mem_cons_self
    have hplace := hportable _ (hhanded.pointer_eq ▸ hmem) place.node (hhanded.reached.isAddressed hd)
    have hproject := SequenceType.hasDistinctNames_project hverbatim (Json.hasDistinctNames_arr_iff.mp hitems)
    have hmet := (hhanded.exists_ok_iff h he hc hd hplace hproject).mp haccepts
    exact SequenceType.IsFor.exists_build h he hc hd hfor hportable hmet hstrays

end Judging

/-- Without conversion, and where references mean in every node that is handed to the engine what they mean in the
schema, creating an instance succeeds exactly if the type accepts what it takes of the value, and instances can be made
of the objects at positions of arrays for which the nodes of the arrays state no rule. What is created stands for what
the type takes of the value. -/
theorem Schema.create_iff_accepts {Context : Type} {I : Interpretation Context}
    {inspect : Json → Except SchemaError Unit}
    {judge : Json → Json → List Violation} (h : I.IsDraft7 inspect judge) (schema : Schema)
    (hd : schema.document.hasDistinctNames) (number : Nat) (options : Options) (hc : options.coerce = false) :
    (∀ type, schema.compileModel number (Engine.inspecting inspect judge) options = .ok type →
      ∀ data, (∀ m, type.create (.obj data) = .ok m → m.toJson = type.project data) ∧
        (ArePortable I schema.document options type.pointers (type.project data) → (Json.obj data).hasDistinctNames →
          ((∃ m, type.create (.obj data) = .ok m) ↔
            CanBeMade (type.strays schema.document data) ∧ type.Accepts (type.project data)))) ∧
    ∀ type, schema.compileSequence number (Engine.inspecting inspect judge) options = .ok type →
      ∀ items, (∀ s, type.create items = .ok s → s.toJson = type.project items) ∧
        (ArePortable I schema.document options type.pointers (type.project items) → (Json.arr items).hasDistinctNames →
          ((∃ s, type.create items = .ok s) ↔
            CanBeMade (type.strays schema.document items) ∧ type.Accepts (type.project items))) := by
  have hjudging := Engine.inspecting_eq_judging inspect judge
  refine ⟨fun type htype data => ?_, fun type htype items => ?_⟩
  · obtain ⟨place, hfor⟩ := schema.exists_isFor_compileModel hd htype
    exact ⟨fun m hm => ModelType.toJson_of_build hc (hfor.isChecked hd hjudging) hm,
      fun hportable hdata => hfor.exists_build_iff h rfl hc hd hportable hdata⟩
  · obtain ⟨place, hfor⟩ := schema.exists_isFor_compileSequence hd htype
    exact ⟨fun s hs => SequenceType.toJson_of_build hc (hfor.isChecked hd hjudging) hs,
      fun hportable hitems => hfor.exists_build_iff h rfl hc hd hportable hitems⟩

section Samples

/-- The nodes at the pointers are portable, and their references lead to no further ones. -/
def arePortableBy (document : Json) (options : Options) (pointers : List String) : Bool :=
  pointers.all fun pointer => (document.at? pointer).all fun node =>
    let sheet := Place.sheet document options ⟨pointer, node⟩
    yields (Engine.inspect sheet) (fun _ => true) && sheet.hasDistinctNames && isCertified document options.form sheet

theorem arePortable_of_arePortableBy {document : Json} {options : Options} {pointers : List String}
    (h : arePortableBy document options pointers) (v : Json) :
    ArePortable checkInterpretation document options pointers v := by
  intro pointer hpointer node hnode
  have hplace := List.all_eq_true.mp h pointer hpointer
  simp only [hnode, Option.all_some, Bool.and_eq_true] at hplace
  obtain ⟨⟨hinspect, hsheet⟩, hcertified⟩ := hplace
  obtain ⟨⟨⟩, hinspect, _⟩ := exists_of_yields hinspect
  exact ⟨isFaithful_of_isCertified hcertified, fun _ _ hx => ends_of_isCertified hcertified hinspect hsheet hx⟩

/-- A list with a rule for its first item, an object with a member `a`. -/
def firstRuled : Schema := ⟨.obj [("type", .str "array"), ("items", .arr [.obj [("type", .str "object"),
  ("properties", .obj [("a", .obj [])]), ("required", .arr [.str "a"])]])]⟩

/-- An object with such a list, where the member is a text. -/
def ruledInside : Schema := ⟨.obj [("type", .str "object"),
  ("properties", .obj [("l", .obj [("type", .str "array"), ("items", .arr [.obj [("type", .str "object"),
    ("properties", .obj [("a", .obj [("$ref", .str "#/definitions/s")])]), ("required", .arr [.str "a"])]])])]),
  ("definitions", .obj [("s", .obj [("type", .str "string")])])]⟩

/-- Two items, for the second of which no rule is stated. -/
def twoItems : List Json := [.obj [("a", .str "t")], .obj [("b", .null), ("a", .str "u")]]

private theorem exists_firstRuled : ∃ type s, firstRuled.compileSequence 0 Engine.draft7 .strict = .ok type ∧
    ArePortable checkInterpretation firstRuled.document .strict type.pointers (type.project twoItems) ∧
    type.create twoItems = .ok s ∧ s.toJson = .arr [.obj [("a", .str "t")], .obj [("a", .str "u")]] ∧
    type.Accepts (type.project [.obj [("a", .str "t")], .obj []]) ∧
    ¬ ∃ s, type.create [.obj [("a", .str "t")], .obj []] = .ok s := by
  have hrun : yields (firstRuled.compileSequence 0 Engine.draft7 .strict) fun type =>
      arePortableBy firstRuled.document .strict type.pointers &&
        (yields (type.create twoItems) (fun s =>
          s.toJson = Json.arr [.obj [("a", .str "t")], .obj [("a", .str "u")]]) &&
        (yields (type.check (type.project [.obj [("a", .str "t")], .obj []])) (fun _ => true) &&
          !(type.create [.obj [("a", .str "t")], .obj []]).toBool)) := by decide +kernel
  obtain ⟨type, htype, hrun⟩ := exists_of_yields hrun
  simp only [Bool.and_eq_true] at hrun
  obtain ⟨hportableBy, hcreate, haccepts, hrefused⟩ := hrun
  obtain ⟨s, hs, hvalue⟩ := exists_of_yields hcreate
  obtain ⟨canonical, hcanonical, _⟩ := exists_of_yields haccepts
  refine ⟨type, s, htype, arePortable_of_arePortableBy hportableBy _, hs, of_decide_eq_true hvalue,
    ⟨canonical, hcanonical⟩, ?_⟩
  rintro ⟨s', hs'⟩
  rw [hs'] at hrefused
  cases hrefused

/-- Where instances can be made of an item that no rule is stated for, the type accepts what the instances stand for. -/
theorem create_iff_accepts_ruled :
    (ruledInside.document.hasDistinctNames ∧ ∃ type m, ruledInside.compileModel 0 Engine.draft7 .strict = .ok type ∧
      ArePortable checkInterpretation ruledInside.document .strict type.pointers
        (type.project [("k", .null), ("l", .arr twoItems)]) ∧
      type.create (.obj [("k", .null), ("l", .arr twoItems)]) = .ok m ∧
      m.toJson = .obj [("l", .arr [.obj [("a", .str "t")], .obj [("a", .str "u")]])] ∧ type.Accepts m.toJson) ∧
    firstRuled.document.hasDistinctNames ∧ ∃ type s, firstRuled.compileSequence 0 Engine.draft7 .strict = .ok type ∧
      ArePortable checkInterpretation firstRuled.document .strict type.pointers (type.project twoItems) ∧
      type.create twoItems = .ok s ∧ s.toJson = .arr [.obj [("a", .str "t")], .obj [("a", .str "u")]] ∧
      type.Accepts s.toJson := by
  have hnames : ruledInside.document.hasDistinctNames := by decide
  have hnames' : firstRuled.document.hasDistinctNames := by decide
  have hrun : yields (ruledInside.compileModel 0 Engine.draft7 .strict) fun type =>
      arePortableBy ruledInside.document .strict type.pointers &&
        yields (type.create (.obj [("k", .null), ("l", .arr twoItems)])) fun m =>
          m.toJson = Json.obj [("l", .arr [.obj [("a", .str "t")], .obj [("a", .str "u")]])] := by decide +kernel
  obtain ⟨type, htype, hrun⟩ := exists_of_yields hrun
  obtain ⟨hportableBy, hrun⟩ := Bool.and_eq_true_iff.mp hrun
  obtain ⟨m, hm, hvalue⟩ := exists_of_yields hrun
  obtain ⟨type', s, htype', hportable', hs, hvalue', _⟩ := exists_firstRuled
  have hportable := arePortable_of_arePortableBy hportableBy (type.project [("k", .null), ("l", .arr twoItems)])
  rw [Engine.draft7_eq_inspecting] at htype htype'
  obtain ⟨hjson, hiff⟩ := (Schema.create_iff_accepts isDraft7_check ruledInside hnames 0 .strict rfl).1 type htype _
  obtain ⟨hjson', hiff'⟩ := (Schema.create_iff_accepts isDraft7_check firstRuled hnames' 0 .strict rfl).2 type' htype' _
  refine ⟨⟨hnames, type, m, htype, hportable, hm, of_decide_eq_true hvalue, ?_⟩,
    hnames', type', s, htype', hportable', hs, hvalue', ?_⟩
  · exact hjson m hm ▸ ((hiff hportable (by decide)).mp ⟨m, hm⟩).2
  · exact hjson' s hs ▸ ((hiff' hportable' (by decide)).mp ⟨s, hs⟩).2

/-- The type of elements refuses an item that no rule is stated for, though the type of the list accepts what it takes
of the items. -/
theorem exists_refused_accepted : firstRuled.document.hasDistinctNames ∧
    ∃ type, firstRuled.compileSequence 0 Engine.draft7 .strict = .ok type ∧
      type.Accepts (type.project [.obj [("a", .str "t")], .obj []]) ∧
      ¬ ∃ s, type.create [.obj [("a", .str "t")], .obj []] = .ok s := by
  have hnames : firstRuled.document.hasDistinctNames := by decide
  obtain ⟨type, _, htype, _, _, _, haccepts, hrefused⟩ := exists_firstRuled
  exact ⟨hnames, type, htype, haccepts, hrefused⟩

end Samples
end SchemaBound
