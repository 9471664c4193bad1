import SchemaBound.Proofs.Blueprint.Growth

/-! Each node is compiled and handed to the engine once, behind all that it holds, whichever references lead
to it. -/
namespace SchemaBound
namespace Compilation
open Step

/-- A compilation succeeds with this type, and hands these nodes to the engine, in order. -/
inductive Yields (job : Compilation) : Blueprint → List Place → Prop
  | model {type : ModelType} {handed : List Place} :
      run job.rootModel = (.ok type, handed) → Yields job (.model type) handed
  | sequence {type : SequenceType} {handed : List Place} :
      run job.rootSequence = (.ok type, handed) → Yields job (.sequence type) handed

/-- In a type, a field's rule, or a rule for the elements, leads to this place of the document, and the field or the
elements are of this kind. -/
inductive Assigns (job : Compilation) : Blueprint → Place → FieldKind → Prop
  | field {type : ModelType} {place target : Place} {rules : List (String × Json)} {rule : String × Json}
      {field : Field} :
      place.IsAddressed job.document → place.pointer = type.id.pointer → properties place = .ok rules →
      (rule, field) ∈ rules.zip type.fields → (rulePlace place rule).resolve job.document = .ok target →
      Assigns job (.model type) target field.kind
  | element {type : SequenceType} {element : ModelType} {place object : Place} :
      place.IsAddressed job.document → place.pointer = type.id.pointer →
      Elements.object? job.document place = .ok (some object) → type.element = some element →
      Assigns job (.sequence type) object (.object element)

/-- One compiled type and one call of the engine for each node. -/
structure CompilesOnce (job : Compilation) (root : Blueprint) (handed : List Place) : Prop where
  /-- No node is handed to the engine twice. -/
  nodup : (handed.map Place.pointer).Nodup
  /-- The nodes are those of the types inside the root type, each behind the types that it holds, the fields in
  the order of declaration, and each where it comes first. -/
  listed : handed.map Place.pointer = (root.parts.map Blueprint.pointer).eraseDups
  reached : ∀ k, k ∈ handed.map Place.pointer ↔ ∃ part, root.Reaches part ∧ part.pointer = k
  inner_first : ∀ outer inner, root.Reaches outer → inner ∈ outer.held →
    [inner.pointer, outer.pointer].Sublist (handed.map Place.pointer)
  /-- A pointer has one type, of objects or of arrays. -/
  unique : ∀ part other, root.Reaches part → root.Reaches other → part.pointer = other.pointer → part = other
  /-- Fields and elements whose references lead to one pointer are of one kind, with the same type. -/
  assigned : ∀ outer outer' target target' kind kind', root.Reaches outer → root.Reaches outer' →
    job.Assigns outer target kind → job.Assigns outer' target' kind' → target.pointer = target'.pointer → kind = kind'
  /-- Each type that is held is held for references that lead to its pointer. -/
  exists_assigned : ∀ outer inner, root.Reaches outer → inner ∈ outer.held →
    ∃ target kind, job.Assigns outer target kind ∧ kind.held? = some inner ∧ target.pointer = inner.pointer

/-- The rule stands for the node at the target, and the field is the one for this node. -/
structure IsTarget (job : Compilation) (place : Place) (rule : String × Json) (field : Field) (target : Place) :
    Prop where
  resolve : (rulePlace place rule).resolve job.document = .ok target
  reached : target.Reached job.document
  shape : Shape.ofPlace job.document target = .ok field.kind.shape
  name_eq : field.name = rule.1
  pointer_eq : field.pointer = target.pointer
  isFor : field.kind.IsFor job target

variable {job : Compilation} {done : Progress} {type : Blueprint}

theorem pointer_of_held {kind : FieldKind} {target : Place} {inner : Blueprint} (hkind : kind.IsFor job target)
    (hheld : kind.held? = some inner) : inner.pointer = target.pointer := by
  cases kind with
  | object type | array type =>
    obtain rfl := Option.some.inj hheld
    rw [FieldKind.IsFor] at hkind
    exact hkind.isHanded.pointer_eq
  | union | scalar => cases hheld

section Has

variable (h : job.IsShared done) (hd : job.document.hasDistinctNames)
include h

theorem IsShared.exists_isFor_model {type : ModelType} (htype : done.Has (.model type)) :
    ∃ place, type.IsFor job place ∧ type.id.pointer = place.pointer := by
  obtain ⟨place, _, hfor⟩ := h.origins.1 _ _ htype
  exact ⟨place, hfor, hfor.isHanded.pointer_eq⟩

theorem IsShared.exists_isFor_sequence {type : SequenceType} (htype : done.Has (.sequence type)) :
    ∃ place, type.IsFor job place ∧ type.id.pointer = place.pointer := by
  obtain ⟨place, _, hfor⟩ := h.origins.2 _ _ htype
  exact ⟨place, hfor, hfor.isHanded.pointer_eq⟩

include hd

/-- Finished types are told apart by their pointers. -/
theorem IsShared.eq_of_pointer {part other : Blueprint} (hpart : done.Has part) (hother : done.Has other)
    (hpointer : part.pointer = other.pointer) : part = other := by
  cases part with
  | model part =>
    cases other with
    | model other =>
      rw [Blueprint.pointer, Blueprint.pointer] at hpointer
      rw [Progress.Has, hpointer] at hpart
      rw [Option.some.inj (hpart.symm.trans hother)]
    | sequence other =>
      obtain ⟨place, hfor, hplace⟩ := h.exists_isFor_model hpart
      have hnone := h.sequences_lookup_eq_none hd hfor.isHanded.reached hfor.isHanded.hasShape
      rw [Blueprint.pointer, Blueprint.pointer, hplace] at hpointer
      rw [Progress.Has, ← hpointer, hnone] at hother
      cases hother
  | sequence part =>
    cases other with
    | model other =>
      obtain ⟨place, hfor, hplace⟩ := h.exists_isFor_sequence hpart
      have hnone := h.models_lookup_eq_none hd hfor.isHanded.reached hfor.isHanded.hasShape
      rw [Blueprint.pointer, Blueprint.pointer, hplace] at hpointer
      rw [Progress.Has, ← hpointer, hnone] at hother
      cases hother
    | sequence other =>
      rw [Blueprint.pointer, Blueprint.pointer] at hpointer
      rw [Progress.Has, hpointer] at hpart
      rw [Option.some.inj (hpart.symm.trans hother)]

/-- The rules for the fields of a finished type, each with the field that it declares. -/
theorem IsShared.exists_rules {type : ModelType} (htype : done.Has (.model type)) :
    ∃ place rules, place.IsAddressed job.document ∧ place.pointer = type.id.pointer ∧ properties place = .ok rules ∧
      List.Forall₂ (fun rule field => ∃ target, job.IsTarget place rule field target) rules type.fields := by
  obtain ⟨place, rules, hp, hpointer, hrules, hkinds⟩ := h.kinds type htype
  obtain ⟨origin, hfor, horigin⟩ := h.exists_isFor_model htype
  obtain rfl := hp.eq_of_pointer hd hfor.isHanded.reached (hpointer.trans horigin)
  obtain ⟨rules', hrules', hfields⟩ := hfor.exists_rules
  obtain rfl := Except.ok.inj (hrules.symm.trans hrules')
  obtain ⟨hlength, hsuits⟩ := List.forall₂_iff_zip.mp hkinds
  obtain ⟨_, hzip⟩ := List.forall₂_iff_zip.mp hfields
  refine ⟨place, rules, hp.isAddressed hd, hpointer, hrules,
    List.forall₂_iff_zip.mpr ⟨hlength, fun {rule field} hmem => ?_⟩⟩
  obtain ⟨target, hresolve, hshape, htarget⟩ := hsuits hmem
  obtain ⟨hname, target', hresolve', hkind⟩ := hzip hmem
  obtain rfl := Except.ok.inj (hresolve.symm.trans hresolve')
  have hrule : (rulePlace place rule).Reached job.document :=
    .property hp hfor.isHanded.hasShape ⟨rules, rule.1, rule.2, hrules, (List.of_mem_zip hmem).1, rfl⟩
  exact ⟨target, hresolve, hrule.resolve hresolve, hshape, hname, htarget, hkind⟩

/-- The object that the elements of a finished type may be, with its type. -/
theorem IsShared.exists_object {type : SequenceType} {element : ModelType} (htype : done.Has (.sequence type))
    (helement : type.element = some element) :
    ∃ place object, place.IsAddressed job.document ∧ place.pointer = type.id.pointer ∧
      Elements.object? job.document place = .ok (some object) ∧ element.IsFor job object := by
  obtain ⟨place, hfor, hplace⟩ := h.exists_isFor_sequence htype
  obtain ⟨object, hobject, hkind⟩ := hfor.exists_object_of_element helement
  exact ⟨place, object, hfor.isHanded.reached.isAddressed hd, hplace.symm, hobject, hkind⟩

/-- The kinds that a type assigns are those that the shapes of the places ask for, with the types of the places. -/
theorem IsShared.of_assigns {target : Place} {kind : FieldKind} (htype : done.Has type)
    (hassigns : job.Assigns type target kind) :
    target.Reached job.document ∧ Shape.ofPlace job.document target = .ok kind.shape ∧
      ∀ inner, kind.held? = some inner → done.Has inner ∧ inner.pointer = target.pointer := by
  cases hassigns with
  | @field type place target rules rule field haddressed hpointer hrules hfield hresolve =>
    obtain ⟨same, rules', hsame, hsamePointer, hrules', hfields⟩ := h.exists_rules hd htype
    obtain rfl := haddressed.eq_of_pointer hsame (hpointer.trans hsamePointer.symm)
    obtain rfl := Except.ok.inj (hrules.symm.trans hrules')
    obtain ⟨target', htarget⟩ := (List.forall₂_iff_zip.mp hfields).2 hfield
    obtain rfl := Except.ok.inj (hresolve.symm.trans htarget.resolve)
    refine ⟨htarget.reached, htarget.shape, fun inner hheld => ⟨?_, pointer_of_held htarget.isFor hheld⟩⟩
    exact h.closed _ inner htype (List.mem_filterMap.mpr ⟨field, (List.of_mem_zip hfield).2, hheld⟩)
  | @element type element place object haddressed hpointer hobject helement =>
    obtain ⟨same, object', hsame, hsamePointer, hobject', hkind⟩ := h.exists_object hd htype helement
    obtain rfl := haddressed.eq_of_pointer hsame (hpointer.trans hsamePointer.symm)
    obtain rfl := Option.some.inj (Except.ok.inj (hobject.symm.trans hobject'))
    refine ⟨hkind.isHanded.reached, hkind.isHanded.hasShape.ofPlace, fun inner hheld => ?_⟩
    obtain rfl := Option.some.inj hheld
    have hinner : Blueprint.model element ∈ (Blueprint.sequence type).held := by
      rw [Blueprint.held, helement]
      exact List.mem_cons_self
    exact ⟨h.closed _ _ htype hinner, hkind.isHanded.pointer_eq⟩

/-- What a finished type holds, it holds for references to its place. -/
theorem IsShared.exists_assigns {inner : Blueprint} (htype : done.Has type) (hinner : inner ∈ type.held) :
    ∃ target kind, job.Assigns type target kind ∧ kind.held? = some inner ∧ target.pointer = inner.pointer := by
  cases type with
  | model type =>
    obtain ⟨place, rules, haddressed, hpointer, hrules, hfields⟩ := h.exists_rules hd htype
    obtain ⟨field, hfield, hheld⟩ := List.mem_filterMap.mp hinner
    obtain ⟨hlength, hzip⟩ := List.forall₂_iff_zip.mp hfields
    obtain ⟨rule, hmem⟩ := exists_mem_zip_of_mem hlength hfield
    obtain ⟨target, htarget⟩ := hzip hmem
    have hsame := (pointer_of_held htarget.isFor hheld).symm
    exact ⟨target, field.kind, .field haddressed hpointer hrules hmem htarget.resolve, hheld, hsame⟩
  | sequence type =>
    obtain ⟨element, helement, rfl⟩ := List.mem_map.mp hinner
    have helement := Option.mem_toList.mp helement
    obtain ⟨place, object, haddressed, hpointer, hobject, hkind⟩ := h.exists_object hd htype helement
    exact ⟨object, .object element, .element haddressed hpointer hobject helement, rfl, hkind.isHanded.pointer_eq.symm⟩

/-- Places with one pointer are assigned one kind. -/
theorem IsShared.eq_of_assigns {type' : Blueprint} {target target' : Place} {kind kind' : FieldKind}
    (htype : done.Has type) (htype' : done.Has type') (hassigns : job.Assigns type target kind)
    (hassigns' : job.Assigns type' target' kind') (hpointer : target.pointer = target'.pointer) : kind = kind' := by
  obtain ⟨hreached, hshape, hheld⟩ := h.of_assigns hd htype hassigns
  obtain ⟨hreached', hshape', hheld'⟩ := h.of_assigns hd htype' hassigns'
  obtain rfl := hreached.eq_of_pointer hd hreached' hpointer
  have hsame : kind.shape = kind'.shape := Except.ok.inj (hshape.symm.trans hshape')
  have hinner {inner inner' : Blueprint} (hk : kind.held? = some inner) (hk' : kind'.held? = some inner') :
      inner = inner' := by
    obtain ⟨hhas, htarget⟩ := hheld inner hk
    obtain ⟨hhas', htarget'⟩ := hheld' inner' hk'
    exact h.eq_of_pointer hd hhas hhas' (htarget.trans htarget'.symm)
  cases kind with
  | scalar => cases kind' <;> first | rfl | cases hsame
  | union => cases kind' <;> first | rfl | cases hsame
  | object type =>
    cases kind' with
    | object other =>
      cases hinner rfl rfl
      rfl
    | _ => cases hsame
  | array type =>
    cases kind' with
    | array other =>
      cases hinner rfl rfl
      rfl
    | _ => cases hsame

end Has

/-- The progress at the end of a compilation. -/
theorem IsShared.compilesOnce (h : job.IsShared done) (hd : job.document.hasDistinctNames) (htype : done.Has type)
    (hlisted : done.pointers = (type.parts.map Blueprint.pointer).eraseDups) : job.CompilesOnce type done.handed where
  nodup := h.nodup
  listed := hlisted
  reached k := by
    change k ∈ done.pointers ↔ _
    rw [hlisted, List.mem_eraseDups, List.mem_map]
    simp only [Blueprint.mem_parts_iff]
  inner_first outer inner houter hinner := h.ordered outer inner (h.has_of_reaches htype houter) hinner
  unique part other hpart hother hpointer :=
    h.eq_of_pointer hd (h.has_of_reaches htype hpart) (h.has_of_reaches htype hother) hpointer
  assigned outer outer' target target' kind kind' houter houter' hassigns hassigns' hpointer :=
    h.eq_of_assigns hd (h.has_of_reaches htype houter) (h.has_of_reaches htype houter') hassigns hassigns' hpointer
  exists_assigned outer inner houter hinner := h.exists_assigns hd (h.has_of_reaches htype houter) hinner

theorem grows_rootModel (hd : job.document.hasDistinctNames) :
    Meets (· = ⟨[], [], []⟩) job.rootModel (fun type after => job.Grows [] ⟨[], [], []⟩ after type.parts)
      fun _ => True := by
  unfold rootModel
  refine meets_lift (fun top htop => ?_) fun _ _ => trivial
  refine meets_lift (fun shape hshape => ?_) fun _ _ => trivial
  have hs : top.HasShape job.document shape := ⟨Place.noReference_of_resolve htop, hshape⟩
  cases shape with
  | object =>
    have hadds := adds_modelTypeIn hd (placeBound job.document) [] (Place.Reached.root.resolve htop) hs
      (isShared_start job)
    exact hadds.mono (fun _ h => h) fun _ _ h => h.grows
  | _ => exact meets_throw trivial

theorem grows_rootSequence (hd : job.document.hasDistinctNames) :
    Meets (· = ⟨[], [], []⟩) job.rootSequence (fun type after => job.Grows [] ⟨[], [], []⟩ after type.parts)
      fun _ => True := by
  unfold rootSequence
  refine meets_lift (fun top htop => ?_) fun _ _ => trivial
  refine meets_lift (fun shape hshape => ?_) fun _ _ => trivial
  have hs : top.HasShape job.document shape := ⟨Place.noReference_of_resolve htop, hshape⟩
  cases shape with
  | array =>
    have hcompiles : job.Compiles [] job.modelType :=
      ⟨fun object ho hshape => ensures_modelType hd ho hshape,
        fun object ho hshape done hdone => adds_modelTypeIn hd _ [] ho hshape hdone⟩
    exact shares_sequenceType hd (Place.Reached.root.resolve htop) hs hcompiles (isShared_start job)
  | _ => exact meets_throw trivial

/-- What a whole compilation yields has grown from nothing. -/
theorem Yields.exists_grows (hd : job.document.hasDistinctNames) {root : Blueprint} {handed : List Place}
    (h : job.Yields root handed) :
    ∃ done, job.Grows [] ⟨[], [], []⟩ done root.parts ∧ done.handed = handed := by
  cases h with
  | @model type handed hrun =>
    obtain ⟨htype, rfl⟩ := Prod.mk.inj hrun
    exact ⟨_, (grows_rootModel hd).ok rfl (Prod.ext htype rfl), rfl⟩
  | @sequence type handed hrun =>
    obtain ⟨htype, rfl⟩ := Prod.mk.inj hrun
    exact ⟨_, (grows_rootSequence hd).ok rfl (Prod.ext htype rfl), rfl⟩

/-- A compilation that succeeds makes one type for each node inside the root, and one call of the engine, after
those for all that the node holds. -/
theorem compilesOnce_of_yields (job : Compilation) (hd : job.document.hasDistinctNames) {root : Blueprint}
    {handed : List Place} (h : job.Yields root handed) : job.CompilesOnce root handed := by
  obtain ⟨done, hgrows, rfl⟩ := h.exists_grows hd
  refine hgrows.shared.compilesOnce hd (hgrows.has root root.self_mem_parts) ?_
  rw [hgrows.pointers_eq]
  rfl

section Samples

/-- Two fields and the elements of a list with references to one definition, some by way of another. -/
def threeUses : Compilation := ⟨0, .obj [
  ("type", .str "object"),
  ("properties", .obj [
    ("a", .obj [("$ref", .str "#/definitions/alias")]),
    ("b", .obj [("type", .str "array"), ("items", .obj [("$ref", .str "#/definitions/n")])]),
    ("c", .obj [("$ref", .str "#/definitions/n")])]),
  ("definitions", .obj [
    ("alias", .obj [("$ref", .str "#/definitions/n")]),
    ("n", .obj [("type", .str "object"), ("properties", .obj [("x", .obj [("type", .str "integer")])])])])],
  Engine.draft7, .strict⟩

/-- The definition is compiled and handed to the engine once, before the list and the object with the fields. -/
theorem compilesOnce_threeUses : threeUses.document.hasDistinctNames ∧ ∃ root handed,
    threeUses.Yields root handed ∧ handed.map Place.pointer = ["#/definitions/n", "#/properties/b", "#"] ∧
      threeUses.CompilesOnce root handed := by
  have hd : threeUses.document.hasDistinctNames := by decide
  have hrun : Success.yields (run threeUses.rootModel).1 fun _ =>
      (run threeUses.rootModel).2.map Place.pointer = ["#/definitions/n", "#/properties/b", "#"] := by decide +kernel
  obtain ⟨type, htype, hhanded⟩ := Success.exists_of_yields hrun
  have hpointers : (run threeUses.rootModel).2.map Place.pointer = ["#/definitions/n", "#/properties/b", "#"] := by
    simpa using hhanded
  have hyields : threeUses.Yields (.model type) (run threeUses.rootModel).2 := by
    refine .model ?_
    rw [← htype]
  exact ⟨hd, _, _, hyields, hpointers, compilesOnce_of_yields threeUses hd hyields⟩

end Samples

end Compilation
end SchemaBound
