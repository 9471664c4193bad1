import SchemaBound.Proofs.Blueprint.Reach
import SchemaBound.Proofs.Blueprint.Steps

/-! The places that compiled types come from: each type, at every depth, has the fields, the element type and the
validator that the node at its place asks for. -/
namespace SchemaBound
open Compilation

section Origins

variable (job : Compilation)

/-- The place is one of this shape, and the validator is what the engine makes of its node. -/
structure IsHanded (place : Place) (shape : Shape) (pointer : String) (validator : Validator) (options : Options) :
    Prop where
  reached : place.Reached job.document
  hasShape : place.HasShape job.document shape
  pointer_eq : pointer = place.pointer
  handed : job.engine (standalone job.document place) = .ok validator
  options_eq : options = job.options

mutual
/-- The type is that of the object at the place. -/
def ModelType.IsFor : ModelType → Place → Prop
  | ⟨id, _, fields, validator, options⟩, place =>
    IsHanded job place .object id.pointer validator options ∧
      ∃ rules, properties place = .ok rules ∧ fieldsAreFor place fields rules

/-- The fields are those that the rules declare, in their order. -/
def fieldsAreFor (place : Place) : List Field → List (String × Json) → Prop
  | [], [] => True
  | field :: fields, rule :: rules => field.IsFor place rule ∧ fieldsAreFor place fields rules
  | [], _ :: _ | _ :: _, [] => False

/-- The field is the one that the rule declares. -/
def Field.IsFor (place : Place) : Field → String × Json → Prop
  | ⟨name, _, kind⟩, rule =>
    name = rule.1 ∧ ∃ target, (rulePlace place rule).resolve job.document = .ok target ∧ kind.IsFor target

/-- The type of instances, if the kind holds instances, is that of the place. -/
def FieldKind.IsFor : FieldKind → Place → Prop
  | .object type, target => type.IsFor target
  | .array type, target => type.IsFor target
  | .scalar, _ | .union, _ => True

/-- The type is that of the array at the place. -/
def SequenceType.IsFor : SequenceType → Place → Prop
  | ⟨id, element, validator, options⟩, place =>
    IsHanded job place .array id.pointer validator options ∧
      ∃ object?, Elements.object? job.document place = .ok object? ∧ elementIsFor element object?

/-- The type of elements is that of the object that they may be. -/
def elementIsFor : Option ModelType → Option Place → Prop
  | none, none => True
  | some type, some object => type.IsFor object
  | none, some _ | some _, none => False
end

/-- Everything finished so far comes from the place at its pointer. -/
def Progress.HasOrigins (done : Progress) : Prop :=
  (∀ pointer type, done.models.lookup pointer = some type →
      ∃ place : Place, place.pointer = pointer ∧ type.IsFor job place) ∧
    ∀ pointer type, done.sequences.lookup pointer = some type →
      ∃ place : Place, place.pointer = pointer ∧ type.IsFor job place

end Origins

variable {job : Compilation} {place : Place}

theorem ModelType.IsFor.isHanded {type : ModelType} (h : type.IsFor job place) :
    IsHanded job place .object type.id.pointer type.validator type.options := by
  obtain ⟨id, title, fields, validator, options⟩ := type
  rw [IsFor] at h
  exact h.1

theorem SequenceType.IsFor.isHanded {type : SequenceType} (h : type.IsFor job place) :
    IsHanded job place .array type.id.pointer type.validator type.options := by
  obtain ⟨id, element, validator, options⟩ := type
  rw [IsFor] at h
  exact h.1

theorem fieldsAreFor_of_forall₂ {fields : List Field} {rules : List (String × Json)}
    (h : List.Forall₂ (fun rule field => Field.IsFor job place field rule) rules fields) :
    fieldsAreFor job place fields rules := by
  induction h with
  | nil => trivial
  | cons hfield _ ih =>
    rw [fieldsAreFor]
    exact ⟨hfield, ih⟩

theorem forall₂_of_fieldsAreFor {fields : List Field} {rules : List (String × Json)}
    (h : fieldsAreFor job place fields rules) :
    List.Forall₂ (fun rule field => Field.IsFor job place field rule) rules fields := by
  induction fields generalizing rules with
  | nil =>
    cases rules with
    | nil => exact .nil
    | cons rule rules => exact h.elim
  | cons field fields ih =>
    cases rules with
    | nil => exact h.elim
    | cons rule rules =>
      rw [fieldsAreFor] at h
      exact .cons h.1 (ih h.2)

/-- In lists of one length every member has its counterpart. -/
theorem exists_mem_zip_of_mem {α β : Type} {list : List α} {counterparts : List β}
    (hlength : list.length = counterparts.length) {b : β} (hb : b ∈ counterparts) :
    ∃ a, (a, b) ∈ list.zip counterparts := by
  rw [← List.map_snd_zip (Nat.le_of_eq hlength.symm)] at hb
  obtain ⟨⟨a, _⟩, hmem, rfl⟩ := List.mem_map.mp hb
  exact ⟨a, hmem⟩

/-- The rules of the place, each with the field that it declares and the place that it stands for. -/
theorem ModelType.IsFor.exists_rules {type : ModelType} (h : type.IsFor job place) :
    ∃ rules, properties place = .ok rules ∧
      List.Forall₂ (fun rule field => field.name = rule.1 ∧
        ∃ target, (rulePlace place rule).resolve job.document = .ok target ∧ field.kind.IsFor job target)
        rules type.fields := by
  obtain ⟨id, title, fields, validator, options⟩ := type
  rw [IsFor] at h
  obtain ⟨_, rules, hrules, hfields⟩ := h
  refine ⟨rules, hrules, (forall₂_of_fieldsAreFor hfields).imp fun rule field hfield => ?_⟩
  obtain ⟨name, pointer, kind⟩ := field
  rw [Field.IsFor] at hfield
  exact hfield

/-- The question for the object of an array that has a type is answered, and the type goes by the answer. -/
theorem SequenceType.IsFor.exists_object {type : SequenceType} (h : type.IsFor job place) :
    ∃ object?, Elements.object? job.document place = .ok object? ∧ elementIsFor job type.element object? := by
  obtain ⟨id, element, validator, options⟩ := type
  rw [IsFor] at h
  exact h.2

theorem SequenceType.IsFor.exists_object_of_element {type : SequenceType} (h : type.IsFor job place)
    {element : ModelType} (helement : type.element = some element) :
    ∃ object, Elements.object? job.document place = .ok (some object) ∧ element.IsFor job object := by
  obtain ⟨object?, hobject, hkind⟩ := h.exists_object
  rw [helement] at hkind
  cases object? with
  | none => exact hkind.elim
  | some object =>
    rw [elementIsFor] at hkind
    exact ⟨object, hobject, hkind⟩

theorem names_of_fieldsAreFor {fields : List Field} {rules : List (String × Json)}
    (h : fieldsAreFor job place fields rules) : fields.map Field.name = rules.map (·.1) := by
  induction fields generalizing rules with
  | nil =>
    cases rules with
    | nil => rfl
    | cons rule rules => exact h.elim
  | cons field fields ih =>
    cases rules with
    | nil => exact h.elim
    | cons rule rules =>
      obtain ⟨name, pointer, kind⟩ := field
      rw [fieldsAreFor, Field.IsFor] at h
      rw [List.map_cons, List.map_cons, ih h.2, h.1.1]

namespace Compilation
open Step

private theorem lookup_cons_forall {α : Type} {P : String → α → Prop} {key : String} {a : α}
    {entries : List (String × α)} (ha : P key a) (h : ∀ pointer b, entries.lookup pointer = some b → P pointer b) :
    ∀ pointer b, ((key, a) :: entries).lookup pointer = some b → P pointer b := by
  intro pointer b hb
  rw [List.lookup_cons] at hb
  by_cases hk : pointer = key
  · subst hk
    rw [beq_self_eq_true] at hb
    exact Option.some.inj hb ▸ ha
  · rw [beq_eq_false_iff_ne.mpr hk] at hb
    exact h pointer b hb

theorem hasOrigins_start (job : Compilation) : Progress.HasOrigins job ⟨[], [], []⟩ :=
  ⟨fun _ _ h => (nomatch h), fun _ _ h => (nomatch h)⟩

/-- The engine's answer for the node of the place, whatever the progress. -/
theorem ensures_hand :
    Ensures (Progress.HasOrigins job) (job.hand place) fun validator =>
      job.engine (standalone job.document place) = .ok validator := by
  have hmark : Ensures (Progress.HasOrigins job)
      (modify fun done => { done with handed := done.handed ++ [⟨place.pointer, standalone job.document place⟩] })
      fun _ => True :=
    ensures_modify fun done h => h
  unfold hand
  refine hmark.bind fun _ _ => ?_
  split
  · rename_i validator hvalidator
    exact ensures_pure hvalidator
  · exact ensures_throw _
  · exact ensures_throw _

/-- The last steps for an array node, once its element type is there. -/
private theorem ensures_finishSequence (hp : place.Reached job.document) (hs : place.HasShape job.document .array)
    {object? : Option Place} (hobject : Elements.object? job.document place = .ok object?)
    {element : Option ModelType} (h : elementIsFor job element object?) :
    Ensures (Progress.HasOrigins job)
      (do
        let validator ← job.hand place
        let type : SequenceType := ⟨⟨job.number, place.pointer⟩, element, validator, job.options⟩
        modify fun done => { done with sequences := (place.pointer, type) :: done.sequences }
        return type)
      (fun type => type.IsFor job place) := by
  refine ensures_hand.bind fun validator hvalidator => ?_
  have htype : SequenceType.IsFor job ⟨⟨job.number, place.pointer⟩, element, validator, job.options⟩ place := by
    rw [SequenceType.IsFor]
    exact ⟨⟨hp, hs, rfl, hvalidator, rfl⟩, object?, hobject, h⟩
  have hstore : ∀ done : Progress, done.HasOrigins job → Progress.HasOrigins job
      { done with sequences := (place.pointer,
        ⟨⟨job.number, place.pointer⟩, element, validator, job.options⟩) :: done.sequences } :=
    fun done hdone => ⟨hdone.1, lookup_cons_forall ⟨place, rfl, htype⟩ hdone.2⟩
  exact (ensures_modify hstore).bind fun _ _ => ensures_pure htype

theorem ensures_sequenceType (hd : job.document.hasDistinctNames) (hp : place.Reached job.document)
    (hs : place.HasShape job.document .array) {compileElement : Place → Step ModelType}
    (hc : ∀ object : Place, object.Reached job.document → object.HasShape job.document .object →
      Ensures (Progress.HasOrigins job) (compileElement object) fun type => type.IsFor job object) :
    Ensures (Progress.HasOrigins job) (job.sequenceType compileElement place)
      fun type => type.IsFor job place := by
  have hobject? : Ensures (Progress.HasOrigins job)
      (liftM (Elements.object? job.document place) : Step (Option Place))
      fun object? => Elements.object? job.document place = .ok object? :=
    ensures_lift fun object? h => h
  unfold sequenceType
  refine ensures_get.bind fun done hdone => ?_
  split
  · rename_i type htype
    obtain ⟨same, hpointer, h⟩ := hdone.2 _ _ htype
    obtain rfl := h.isHanded.reached.eq_of_pointer hd hp hpointer
    exact ensures_pure h
  · refine hobject?.bind fun object? hobject => ?_
    cases object? with
    | none =>
      have hnone : Ensures (Progress.HasOrigins job) (pure none : Step (Option ModelType))
          fun element => elementIsFor job element none :=
        ensures_pure trivial
      exact hnone.bind fun element h => ensures_finishSequence hp hs hobject h
    | some object =>
      obtain ⟨hreached, hshape⟩ := Elements.reached_of_object hp hs hobject
      have hsome : Ensures (Progress.HasOrigins job) (some <$> compileElement object)
          fun element => elementIsFor job element (some object) := by
        refine ((hc object hreached hshape).mono fun type ht => ?_).map
        rwa [elementIsFor]
      exact hsome.bind fun element h => ensures_finishSequence hp hs hobject h

theorem ensures_fieldBy (hd : job.document.hasDistinctNames) {rule : String × Json}
    (hr : (rulePlace place rule).Reached job.document) {compile : Place → Step ModelType}
    (hc : ∀ object : Place, object.Reached job.document → object.HasShape job.document .object →
      Ensures (Progress.HasOrigins job) (compile object) fun type => type.IsFor job object) :
    Ensures (Progress.HasOrigins job) (job.fieldBy compile place rule)
      fun field => field.IsFor job place rule := by
  have htarget : Ensures (Progress.HasOrigins job)
      (liftM ((rulePlace place rule).resolve job.document) : Step Place)
      fun target => (rulePlace place rule).resolve job.document = .ok target :=
    ensures_lift fun target h => h
  unfold fieldBy
  refine htarget.bind fun target hresolve => ?_
  have ht := hr.resolve hresolve
  have hnone := Place.noReference_of_resolve hresolve
  have hshape : Ensures (Progress.HasOrigins job) (liftM (Shape.ofPlace job.document target) : Step Shape)
      fun shape => target.HasShape job.document shape :=
    ensures_lift fun shape h => ⟨hnone, h⟩
  refine hshape.bind fun shape hs => ?_
  have hfinish (kind : FieldKind) (hkind : kind.IsFor job target) :
      Ensures (Progress.HasOrigins job) (pure ⟨rule.1, target.pointer, kind⟩ : Step Field)
        fun field => field.IsFor job place rule := by
    refine ensures_pure ?_
    rw [Field.IsFor]
    exact ⟨rfl, target, hresolve, hkind⟩
  cases shape with
  | object =>
    have hkind : Ensures (Progress.HasOrigins job) (FieldKind.object <$> compile target)
        fun kind => kind.IsFor job target := by
      refine ((hc target ht hs).mono fun type h => ?_).map
      rwa [FieldKind.IsFor]
    exact hkind.bind hfinish
  | array =>
    have hkind : Ensures (Progress.HasOrigins job) (FieldKind.array <$> job.sequenceType compile target)
        fun kind => kind.IsFor job target := by
      refine ((ensures_sequenceType hd ht hs hc).mono fun type h => ?_).map
      rwa [FieldKind.IsFor]
    exact hkind.bind hfinish
  | union => exact hfinish .union trivial
  | scalar => exact hfinish .scalar trivial

/-- The last steps for an object node, once its fields are there. -/
private theorem ensures_finishModel (hp : place.Reached job.document) (hs : place.HasShape job.document .object)
    {title : Option String} {rules : List (String × Json)} (hrules : properties place = .ok rules)
    {fields : List Field} (hfields : fieldsAreFor job place fields rules) :
    Ensures (Progress.HasOrigins job)
      (do
        let validator ← job.hand place
        let type : ModelType := ⟨⟨job.number, place.pointer⟩, title, fields, validator, job.options⟩
        modify fun done => { done with models := (place.pointer, type) :: done.models }
        return type)
      (fun type => type.IsFor job place) := by
  refine ensures_hand.bind fun validator hvalidator => ?_
  have htype : ModelType.IsFor job ⟨⟨job.number, place.pointer⟩, title, fields, validator, job.options⟩ place := by
    rw [ModelType.IsFor]
    exact ⟨⟨hp, hs, rfl, hvalidator, rfl⟩, rules, hrules, hfields⟩
  have hstore : ∀ done : Progress, done.HasOrigins job → Progress.HasOrigins job
      { done with models := (place.pointer,
        ⟨⟨job.number, place.pointer⟩, title, fields, validator, job.options⟩) :: done.models } :=
    fun done hdone => ⟨lookup_cons_forall ⟨place, rfl, htype⟩ hdone.1, hdone.2⟩
  exact (ensures_modify hstore).bind fun _ _ => ensures_pure htype

theorem ensures_modelTypeIn (hd : job.document.hasDistinctNames) (depth : Nat) (pending : List String)
    (hp : place.Reached job.document) (hs : place.HasShape job.document .object) :
    Ensures (Progress.HasOrigins job) (job.modelTypeIn depth pending place) fun type => type.IsFor job place := by
  induction depth generalizing pending place with
  | zero => exact ensures_throw _
  | succ depth ih =>
    have hproperties : Ensures (Progress.HasOrigins job) (liftM (properties place) : Step (List (String × Json)))
        fun rules => properties place = .ok rules :=
      ensures_lift fun rules h => h
    unfold modelTypeIn
    refine ensures_get.bind fun done hdone => ?_
    split
    · rename_i type htype
      obtain ⟨same, hpointer, h⟩ := hdone.1 _ _ htype
      obtain rfl := h.isHanded.reached.eq_of_pointer hd hp hpointer
      exact ensures_pure h
    · split
      · exact (ensures_throw _).bind fun _ => False.elim
      · refine hproperties.bind fun rules hrules => ?_
        have hfields : Ensures (Progress.HasOrigins job)
            (rules.mapM (job.fieldBy (job.modelTypeIn depth (place.pointer :: pending)) place))
            (List.Forall₂ (fun rule field => Field.IsFor job place field rule) rules) := by
          refine ensures_mapM _ rules fun rule hrule => ?_
          have hreached : (rulePlace place rule).Reached job.document :=
            .property hp hs ⟨rules, rule.1, rule.2, hrules, hrule, rfl⟩
          exact ensures_fieldBy hd hreached fun object ho hshape => ih _ ho hshape
        exact hfields.bind fun fields h => ensures_finishModel hp hs hrules (fieldsAreFor_of_forall₂ h)

theorem ensures_modelType (hd : job.document.hasDistinctNames) (hp : place.Reached job.document)
    (hs : place.HasShape job.document .object) :
    Ensures (Progress.HasOrigins job) (job.modelType place) fun type => type.IsFor job place :=
  ensures_modelTypeIn hd _ [] hp hs

/-- What a whole compilation yields. -/
private theorem Step.Ensures.run_of_start {α : Type} {step : Step α} {post : α → Prop}
    (h : Ensures (Progress.HasOrigins job) step post) {a : α} (hrun : (Compilation.run step).1 = .ok a) : post a := by
  have hfrom : step.runFrom ⟨[], [], []⟩ = (.ok a, (step.runFrom ⟨[], [], []⟩).2) := Prod.ext hrun rfl
  exact (h _ _ _ (hasOrigins_start job) hfrom).2

private theorem ensures_root (job : Compilation) :
    Ensures (Progress.HasOrigins job) (liftM ((Place.root job.document).resolve job.document) : Step Place)
      fun place => (Place.root job.document).resolve job.document = .ok place :=
  ensures_lift fun _ h => h

private theorem ensures_shape (hnone : place.node.get? "$ref" = none) :
    Ensures (Progress.HasOrigins job) (liftM (Shape.ofPlace job.document place) : Step Shape)
      fun shape => place.HasShape job.document shape :=
  ensures_lift fun _ h => ⟨hnone, h⟩

/-- The type of the document is that of the object that its root stands for. -/
theorem exists_isFor_rootModel (hd : job.document.hasDistinctNames) {type : ModelType}
    (h : (run job.rootModel).1 = .ok type) :
    ∃ place, (Place.root job.document).resolve job.document = .ok place ∧ type.IsFor job place := by
  have hensures : Ensures (Progress.HasOrigins job) job.rootModel fun type =>
      ∃ place, (Place.root job.document).resolve job.document = .ok place ∧ type.IsFor job place := by
    unfold rootModel
    refine (ensures_root job).bind fun place hplace => ?_
    refine (ensures_shape (Place.noReference_of_resolve hplace)).bind fun shape hs => ?_
    cases shape with
    | object =>
      have htype := ensures_modelType hd (Place.Reached.root.resolve hplace) hs
      exact htype.mono fun type h => ⟨place, hplace, h⟩
    | _ => exact ensures_throw _
  exact hensures.run_of_start h

/-- The type of the document is that of the array that its root stands for. -/
theorem exists_isFor_rootSequence (hd : job.document.hasDistinctNames) {type : SequenceType}
    (h : (run job.rootSequence).1 = .ok type) :
    ∃ place, (Place.root job.document).resolve job.document = .ok place ∧ type.IsFor job place := by
  have hensures : Ensures (Progress.HasOrigins job) job.rootSequence fun type =>
      ∃ place, (Place.root job.document).resolve job.document = .ok place ∧ type.IsFor job place := by
    unfold rootSequence
    refine (ensures_root job).bind fun place hplace => ?_
    refine (ensures_shape (Place.noReference_of_resolve hplace)).bind fun shape hs => ?_
    cases shape with
    | array =>
      have htype := ensures_sequenceType hd (Place.Reached.root.resolve hplace) hs fun object ho hshape =>
        ensures_modelType hd ho hshape
      exact htype.mono fun type h => ⟨place, hplace, h⟩
    | _ => exact ensures_throw _
  exact hensures.run_of_start h

end Compilation

variable {schema : Schema} {number : Nat} {engine : Engine} {options : Options}

/-- A schema without repeated names compiles into a model type that comes from a place of its document. -/
theorem Schema.exists_isFor_compileModel {type : ModelType} (hd : schema.document.hasDistinctNames)
    (h : schema.compileModel number engine options = .ok type) :
    ∃ place, type.IsFor ⟨number, schema.document, engine, options⟩ place := by
  obtain ⟨place, _, hfor⟩ := Compilation.exists_isFor_rootModel hd h
  exact ⟨place, hfor⟩

/-- The same for sequence types. -/
theorem Schema.exists_isFor_compileSequence {type : SequenceType} (hd : schema.document.hasDistinctNames)
    (h : schema.compileSequence number engine options = .ok type) :
    ∃ place, type.IsFor ⟨number, schema.document, engine, options⟩ place := by
  obtain ⟨place, _, hfor⟩ := Compilation.exists_isFor_rootSequence hd h
  exact ⟨place, hfor⟩

end SchemaBound
