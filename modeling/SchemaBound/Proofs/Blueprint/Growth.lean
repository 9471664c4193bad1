import Mathlib.Data.List.Nodup
import SchemaBound.Proofs.Blueprint.Listing
import SchemaBound.Proofs.Blueprint.Origins
import SchemaBound.Proofs.Blueprint.Outcomes

/-! How a compilation grows: each step finishes the types that it comes to, as far as they are not finished, and
leaves the objects alone that are being compiled around it. -/
namespace SchemaBound

/-- The type is finished. -/
def Progress.Has (done : Progress) : Blueprint → Prop
  | .model type => done.models.lookup type.id.pointer = some type
  | .sequence type => done.sequences.lookup type.id.pointer = some type

/-- The nodes handed to the engine, in order. -/
def Progress.pointers (done : Progress) : List String := done.handed.map Place.pointer

/-- The last steps for a type: its node is handed to the engine, and the type is finished. -/
def Progress.finish (done : Progress) (node : Json) : Blueprint → Progress
  | .model type => { done with
      handed := done.handed ++ [⟨type.id.pointer, node⟩], models := (type.id.pointer, type) :: done.models }
  | .sequence type => { done with
      handed := done.handed ++ [⟨type.id.pointer, node⟩], sequences := (type.id.pointer, type) :: done.sequences }

namespace Compilation
open Step

/-- The rule leads to the node at the field's pointer, which is of the shape that the field's kind has. -/
def Suits (job : Compilation) (place : Place) (rule : String × Json) (field : Field) : Prop :=
  ∃ target, (rulePlace place rule).resolve job.document = .ok target ∧
    Shape.ofPlace job.document target = .ok field.kind.shape ∧ field.pointer = target.pointer

/-- Each field of the type has the kind that its rule asks for. -/
def HasKinds (job : Compilation) (type : ModelType) : Prop :=
  ∃ place rules, place.Reached job.document ∧ place.pointer = type.id.pointer ∧ properties place = .ok rules ∧
    List.Forall₂ (job.Suits place) rules type.fields

/-- Between the steps of a compilation, the nodes handed to the engine are those of the finished types, each once
and behind all that it holds. -/
structure IsShared (job : Compilation) (done : Progress) : Prop where
  origins : done.HasOrigins job
  nodup : done.pointers.Nodup
  finished : ∀ k ∈ done.pointers, ∃ part, done.Has part ∧ part.pointer = k
  handed : ∀ part, done.Has part → part.pointer ∈ done.pointers
  closed : ∀ outer inner, done.Has outer → inner ∈ outer.held → done.Has inner
  ordered : ∀ outer inner, done.Has outer → inner ∈ outer.held →
    [inner.pointer, outer.pointer].Sublist done.pointers
  kinds : ∀ type, done.Has (.model type) → job.HasKinds type

/-- From one progress to another the parts are finished, as far as they were not, and none of the pending
objects. -/
structure Grows (job : Compilation) (pending : List String) (done after : Progress) (parts : List Blueprint) :
    Prop where
  shared : job.IsShared after
  keeps : ∀ part, done.Has part → after.Has part
  has : ∀ part ∈ parts, after.Has part
  pointers_eq : after.pointers = (done.pointers ++ parts.map Blueprint.pointer).eraseDups
  spares : ∀ k ∈ pending, done.models.lookup k = none → after.models.lookup k = none

variable {job : Compilation} {place : Place} {done mid after : Progress} {pending : List String}
  {parts more : List Blueprint}

theorem isShared_start (job : Compilation) : job.IsShared ⟨[], [], []⟩ := by
  have hnothing (part : Blueprint) : ¬ Progress.Has ⟨[], [], []⟩ part := by
    intro h
    cases part <;> cases h
  exact {
    origins := ⟨fun _ type h => absurd h (by simp), fun _ type h => absurd h (by simp)⟩
    nodup := List.nodup_nil
    finished := fun k hk => absurd hk List.not_mem_nil
    handed := fun part h => absurd h (hnothing part)
    closed := fun outer _ h => absurd h (hnothing outer)
    ordered := fun outer _ h => absurd h (hnothing outer)
    kinds := fun type h => absurd h (hnothing (.model type)) }

namespace Grows

theorem refl (h : job.IsShared done) : job.Grows pending done done [] where
  shared := h
  keeps _ hpart := hpart
  has _ hpart := absurd hpart List.not_mem_nil
  pointers_eq := by rw [List.map_nil, List.append_nil, eraseDups_of_nodup h.nodup]
  spares _ _ hnone := hnone

theorem trans (h : job.Grows pending done mid parts) (h' : job.Grows pending mid after more) :
    job.Grows pending done after (parts ++ more) where
  shared := h'.shared
  keeps part hpart := h'.keeps part (h.keeps part hpart)
  has part hpart := (List.mem_append.mp hpart).elim (fun hpart => h'.keeps part (h.has part hpart)) (h'.has part)
  pointers_eq := by
    rw [h'.pointers_eq, h.pointers_eq, eraseDups_eraseDups_append, List.map_append, List.append_assoc]
  spares k hk hnone := h'.spares k hk (h.spares k hk hnone)

theorem mono {fewer : List String} (h : job.Grows pending done after parts) (hsub : fewer ⊆ pending) :
    job.Grows fewer done after parts :=
  { h with spares := fun k hk => h.spares k (hsub hk) }

end Grows

namespace IsShared

/-- All the parts of a finished type are finished. -/
theorem has_of_reaches (h : job.IsShared done) {type part : Blueprint} (htype : done.Has type)
    (hreaches : type.Reaches part) : done.Has part := by
  induction hreaches with
  | refl => exact htype
  | tail _ hheld ih => exact h.closed _ _ ih hheld

/-- A finished type brings nothing new. -/
theorem grows_of_has (h : job.IsShared done) {type : Blueprint} (htype : done.Has type) :
    job.Grows pending done done type.parts := by
  have hparts : ∀ part ∈ type.parts, done.Has part := fun part hpart =>
    h.has_of_reaches htype (Blueprint.mem_parts_iff.mp hpart)
  refine { Grows.refl h with has := hparts, pointers_eq := ?_ }
  refine (eraseDups_append_of_subset h.nodup fun k hk => ?_).symm
  obtain ⟨part, hpart, rfl⟩ := List.mem_map.mp hk
  exact h.handed part (hparts part hpart)

theorem not_mem_pointers (h : job.IsShared done) {k : String} (hmodel : done.models.lookup k = none)
    (hsequence : done.sequences.lookup k = none) : k ∉ done.pointers := by
  intro hk
  obtain ⟨part, hpart, rfl⟩ := h.finished k hk
  cases part with
  | model type => cases hmodel.symm.trans hpart
  | sequence type => cases hsequence.symm.trans hpart

/-- The node of an object is not compiled as an array. -/
theorem sequences_lookup_eq_none (h : job.IsShared done) (hd : job.document.hasDistinctNames)
    (hp : place.Reached job.document) (hs : place.HasShape job.document .object) :
    done.sequences.lookup place.pointer = none := by
  cases htype : done.sequences.lookup place.pointer with
  | none => rfl
  | some type =>
    obtain ⟨same, hpointer, hfor⟩ := h.origins.2 _ _ htype
    obtain rfl := hfor.isHanded.reached.eq_of_pointer hd hp hpointer
    cases hs.ofPlace.symm.trans hfor.isHanded.hasShape.ofPlace

/-- The node of an array is not compiled as an object. -/
theorem models_lookup_eq_none (h : job.IsShared done) (hd : job.document.hasDistinctNames)
    (hp : place.Reached job.document) (hs : place.HasShape job.document .array) :
    done.models.lookup place.pointer = none := by
  cases htype : done.models.lookup place.pointer with
  | none => rfl
  | some type =>
    obtain ⟨same, hpointer, hfor⟩ := h.origins.1 _ _ htype
    obtain rfl := hfor.isHanded.reached.eq_of_pointer hd hp hpointer
    cases hs.ofPlace.symm.trans hfor.isHanded.hasShape.ofPlace

/-- Where the object of its elements is not finished, an array is not finished. -/
theorem sequences_lookup_eq_none_of_object (h : job.IsShared done) (hd : job.document.hasDistinctNames)
    (hobject : done.models.lookup place.pointer = none) {array : Place} (ha : array.Reached job.document)
    (helement : Elements.object? job.document array = .ok (some place)) :
    done.sequences.lookup array.pointer = none := by
  cases htype : done.sequences.lookup array.pointer with
  | none => rfl
  | some type =>
    obtain ⟨same, hpointer, hfor⟩ := h.origins.2 _ _ htype
    obtain rfl := hfor.isHanded.reached.eq_of_pointer hd ha hpointer
    have hhas : done.Has (.sequence type) := by
      rw [← hfor.isHanded.pointer_eq] at htype
      exact htype
    obtain ⟨id, element, validator, options⟩ := type
    rw [SequenceType.IsFor] at hfor
    obtain ⟨_, object?, hobject?, helementFor⟩ := hfor
    obtain rfl := Except.ok.inj (hobject?.symm.trans helement)
    cases element with
    | none => exact helementFor.elim
    | some element =>
      rw [elementIsFor] at helementFor
      have helementHas := h.closed _ (.model element) hhas List.mem_cons_self
      rw [Progress.Has, helementFor.isHanded.pointer_eq, hobject] at helementHas
      cases helementHas

end IsShared

private theorem lookup_cons_eq_some_iff {α : Type} {entries : List (String × α)} {key k : String} {a b : α} :
    ((key, a) :: entries).lookup k = some b ↔ k = key ∧ a = b ∨ k ≠ key ∧ entries.lookup k = some b := by
  rw [List.lookup_cons]
  by_cases hk : k = key
  · simp [hk]
  · simp [hk, beq_eq_false_iff_ne.mpr hk]

/-- With the last steps for a type that is new, it is finished as well. -/
private theorem has_finish_iff (h : job.IsShared done) {part other : Blueprint} (node : Json)
    (hnew : part.pointer ∉ done.pointers) : (done.finish node part).Has other ↔ other = part ∨ done.Has other := by
  have hne (hother : done.Has other) : other.pointer ≠ part.pointer := fun heq => hnew (heq ▸ h.handed other hother)
  cases part with
  | model type =>
    cases other with
    | model other =>
      rw [Progress.Has, Progress.finish, lookup_cons_eq_some_iff, Blueprint.model.injEq]
      constructor
      · rintro (⟨_, rfl⟩ | ⟨_, hother⟩)
        · exact Or.inl rfl
        · exact Or.inr hother
      · rintro (rfl | hother)
        · exact Or.inl ⟨rfl, rfl⟩
        · exact Or.inr ⟨hne hother, hother⟩
    | sequence other => simp [Progress.Has, Progress.finish]
  | sequence type =>
    cases other with
    | model other => simp [Progress.Has, Progress.finish]
    | sequence other =>
      rw [Progress.Has, Progress.finish, lookup_cons_eq_some_iff, Blueprint.sequence.injEq]
      constructor
      · rintro (⟨_, rfl⟩ | ⟨_, hother⟩)
        · exact Or.inl rfl
        · exact Or.inr hother
      · rintro (rfl | hother)
        · exact Or.inl ⟨rfl, rfl⟩
        · exact Or.inr ⟨hne hother, hother⟩

private theorem pointers_finish (done : Progress) (node : Json) (part : Blueprint) :
    (done.finish node part).pointers = done.pointers ++ [part.pointer] := by
  cases part <;> simp [Progress.finish, Progress.pointers, Blueprint.pointer]

private theorem isShared_finish (h : job.IsShared done) {part : Blueprint} {node : Json}
    (horigins : (done.finish node part).HasOrigins job) (hnew : part.pointer ∉ done.pointers)
    (hheld : ∀ inner ∈ part.held, done.Has inner) (hkinds : ∀ type, part = .model type → job.HasKinds type) :
    job.IsShared (done.finish node part) where
  origins := horigins
  nodup := by
    rw [pointers_finish, ← List.concat_eq_append]
    exact (List.nodup_concat _ _).mpr ⟨hnew, h.nodup⟩
  finished k hk := by
    rw [pointers_finish] at hk
    rcases List.mem_append.mp hk with hk | hk
    · obtain ⟨other, hother, hpointer⟩ := h.finished k hk
      exact ⟨other, (has_finish_iff h node hnew).mpr (Or.inr hother), hpointer⟩
    · exact ⟨part, (has_finish_iff h node hnew).mpr (Or.inl rfl), (List.mem_singleton.mp hk).symm⟩
  handed other hother := by
    rw [pointers_finish]
    rcases (has_finish_iff h node hnew).mp hother with rfl | hother
    · exact List.mem_append_right _ List.mem_cons_self
    · exact List.mem_append_left _ (h.handed other hother)
  closed outer inner houter hinner := by
    refine (has_finish_iff h node hnew).mpr (Or.inr ?_)
    rcases (has_finish_iff h node hnew).mp houter with rfl | houter
    · exact hheld inner hinner
    · exact h.closed outer inner houter hinner
  ordered outer inner houter hinner := by
    rw [pointers_finish]
    rcases (has_finish_iff h node hnew).mp houter with rfl | houter
    · have hbefore : [inner.pointer].Sublist done.pointers :=
        List.singleton_sublist.mpr (h.handed inner (hheld inner hinner))
      exact hbefore.append (List.Sublist.refl [outer.pointer])
    · exact (h.ordered outer inner houter hinner).trans (List.sublist_append_left _ _)
  kinds type htype := by
    rcases (has_finish_iff h node hnew).mp htype with heq | htype
    · exact hkinds type heq.symm
    · exact h.kinds type htype

/-- The last steps for a type that is new, once all that it holds is finished. -/
private theorem grows_finish (h : job.IsShared done) {part : Blueprint} {node : Json}
    (horigins : (done.finish node part).HasOrigins job) (hnew : part.pointer ∉ done.pointers)
    (hheld : ∀ inner ∈ part.held, done.Has inner) (hkinds : ∀ type, part = .model type → job.HasKinds type)
    (hpending : ∀ type, part = .model type → type.id.pointer ∉ pending) :
    job.Grows pending done (done.finish node part) [part] where
  shared := isShared_finish h horigins hnew hheld hkinds
  keeps other hother := (has_finish_iff h node hnew).mpr (Or.inr hother)
  has other hother := (has_finish_iff h node hnew).mpr (Or.inl (List.mem_singleton.mp hother))
  pointers_eq := by
    have hnodup := (isShared_finish h horigins hnew hheld hkinds).nodup
    rw [pointers_finish] at hnodup ⊢
    exact (eraseDups_of_nodup hnodup).symm
  spares k hk hnone := by
    cases part with
    | model type =>
      have hne : k ≠ type.id.pointer := fun heq => hpending type rfl (heq ▸ hk)
      rw [Progress.finish, List.lookup_cons, beq_eq_false_iff_ne.mpr hne]
      exact hnone
    | sequence type => exact hnone

/-- What a step's success ensures of the origins may be used where more is shown of it. -/
private theorem meets_of_ensures {α : Type} {step : Step α} {post : α → Prop} {goal : α → Progress → Prop}
    {fail : SchemaError → Prop} (h : Ensures (Progress.HasOrigins job) step post) (hdone : done.HasOrigins job)
    (hmeets : Meets (· = done) step (fun a after => after.HasOrigins job → goal a after) fail) :
    Meets (· = done) step goal fail := by
  rintro _ rfl
  have hrun := hmeets _ rfl
  rcases hstep : step.runFrom _ with ⟨x, after⟩
  rw [hstep] at hrun
  cases x with
  | ok a => exact hrun (h _ a after hdone hstep).1
  | error e => exact hrun

private theorem meets_get_bind {α : Type} {next : Progress → Step α} {post : α → Progress → Prop}
    {fail : SchemaError → Prop} (h : Meets (· = done) (next done) post fail) :
    Meets (· = done) (get >>= next) post fail := by
  rintro _ rfl
  rw [runFrom_bind]
  exact h _ rfl

private theorem appends_hand (job : Compilation) (place : Place) (done : Progress) :
    Meets (· = done) (job.hand place)
      (fun _ after => after =
        { done with handed := done.handed ++ [⟨place.pointer, standalone job.document place⟩] })
      fun _ => True := by
  have hmark : Meets (· = done)
      (modify fun done => { done with handed := done.handed ++ [⟨place.pointer, standalone job.document place⟩] })
      (fun _ after => after =
        { done with handed := done.handed ++ [⟨place.pointer, standalone job.document place⟩] })
      fun _ => True := meets_modify (by rintro _ rfl; rfl)
  unfold hand
  refine hmark.bind fun _ => ?_
  split
  · exact meets_pure fun _ h => h
  · exact meets_throw trivial
  · exact meets_throw trivial

private theorem finishes_sequence (job : Compilation) (place : Place) (element : Option ModelType) (done : Progress) :
    Meets (· = done)
      (do
        let validator ← job.hand place
        let type : SequenceType := ⟨⟨job.number, place.pointer⟩, element, validator, job.options⟩
        modify fun done => { done with sequences := (place.pointer, type) :: done.sequences }
        return type)
      (fun type after => type.id.pointer = place.pointer ∧ type.element = element ∧
        after = done.finish (standalone job.document place) (.sequence type))
      fun _ => True := by
  refine (appends_hand job place done).bind fun validator => ?_
  rintro _ rfl
  exact ⟨rfl, rfl, rfl⟩

private theorem finishes_model (job : Compilation) (place : Place) (title : Option String) (fields : List Field)
    (done : Progress) :
    Meets (· = done)
      (do
        let validator ← job.hand place
        let type : ModelType := ⟨⟨job.number, place.pointer⟩, title, fields, validator, job.options⟩
        modify fun done => { done with models := (place.pointer, type) :: done.models }
        return type)
      (fun type after => type.id.pointer = place.pointer ∧ type.fields = fields ∧
        after = done.finish (standalone job.document place) (.model type))
      fun _ => True := by
  refine (appends_hand job place done).bind fun validator => ?_
  rintro _ rfl
  exact ⟨rfl, rfl, rfl⟩

/-- An object's type is finished with its parts. No array with this object as its elements is finished on the
way. -/
structure AddsModel (job : Compilation) (pending : List String) (place : Place) (done : Progress) (type : ModelType)
    (after : Progress) : Prop where
  grows : job.Grows pending done after type.parts
  spares : ∀ array : Place, array.Reached job.document →
    Elements.object? job.document array = .ok (some place) →
    done.sequences.lookup array.pointer = none → after.sequences.lookup array.pointer = none

/-- How objects are compiled while others are pending. -/
structure Compiles (job : Compilation) (pending : List String) (compile : Place → Step ModelType) : Prop where
  ensures : ∀ object : Place, object.Reached job.document → object.HasShape job.document .object →
    Ensures (Progress.HasOrigins job) (compile object) fun type => type.IsFor job object
  adds : ∀ object : Place, object.Reached job.document → object.HasShape job.document .object →
    ∀ done, job.IsShared done →
      Meets (· = done) (compile object) (job.AddsModel pending object done) fun _ => True

theorem shares_sequenceType (hd : job.document.hasDistinctNames) (hp : place.Reached job.document)
    (hs : place.HasShape job.document .array) {compileElement : Place → Step ModelType}
    (hc : job.Compiles pending compileElement) (hdone : job.IsShared done) :
    Meets (· = done) (job.sequenceType compileElement place)
      (fun type after => job.Grows pending done after type.parts) fun _ => True := by
  refine meets_of_ensures (ensures_sequenceType hd hp hs hc.ensures) hdone.origins ?_
  -- The last steps, from where the element type is finished and the array still is not.
  have hlast (element : Option ModelType) (mid : Progress)
      (hgrows : job.Grows pending done mid (element.toList.flatMap ModelType.parts))
      (hnone : mid.sequences.lookup place.pointer = none) :
      Meets (· = mid)
        (do
          let validator ← job.hand place
          let type : SequenceType := ⟨⟨job.number, place.pointer⟩, element, validator, job.options⟩
          modify fun done => { done with sequences := (place.pointer, type) :: done.sequences }
          return type)
        (fun type after => after.HasOrigins job → job.Grows pending done after type.parts) fun _ => True := by
    refine (finishes_sequence job place element mid).mono (fun _ h => h) fun type after h horigins => ?_
    obtain ⟨hpointer, rfl, rfl⟩ := h
    rw [SequenceType.parts_eq]
    refine hgrows.trans (grows_finish hgrows.shared horigins ?_ ?_ nofun nofun)
    · rw [Blueprint.pointer, hpointer]
      exact hgrows.shared.not_mem_pointers (hgrows.shared.models_lookup_eq_none hd hp hs) hnone
    · intro inner hinner
      obtain ⟨element, helement, rfl⟩ := List.mem_map.mp hinner
      exact hgrows.has _ (List.mem_flatMap.mpr ⟨element, helement, Blueprint.self_mem_parts (.model element)⟩)
  unfold sequenceType
  refine meets_get_bind ?_
  split
  · rename_i type htype
    obtain ⟨same, hpointer, hfor⟩ := hdone.origins.2 _ _ htype
    have hhas : done.Has (.sequence type) := by
      rw [← hpointer, ← hfor.isHanded.pointer_eq] at htype
      exact htype
    refine meets_pure fun after h _ => ?_
    obtain rfl := h
    exact hdone.grows_of_has hhas
  · rename_i hnone
    refine meets_lift (fun object? hobject? => ?_) fun _ _ => trivial
    cases object? with
    | none =>
      have hpure : Meets (· = done) (pure none : Step (Option ModelType))
          (fun element after => element = none ∧ after = done) fun _ => True := meets_pure fun _ h => ⟨rfl, h⟩
      refine hpure.bind fun element => ?_
      rintro _ ⟨rfl, rfl⟩
      exact hlast none _ (Grows.refl hdone) hnone _ rfl
    | some object =>
      obtain ⟨hreached, hshape⟩ := Elements.reached_of_object hp hs hobject?
      have hsome : Meets (· = done) (some <$> compileElement object)
          (fun element mid => ∃ type, element = some type ∧ job.AddsModel pending object done type mid)
          fun _ => True :=
        ((hc.adds object hreached hshape done hdone).mono (fun _ h => h) fun type _ h => ⟨type, rfl, h⟩).map_result
      refine hsome.bind fun element => ?_
      rintro mid ⟨type, rfl, h⟩
      refine hlast (some type) mid ?_ (h.spares place hp hobject? hnone) _ rfl
      simpa using h.grows

theorem shares_fieldBy (hd : job.document.hasDistinctNames) {rule : String × Json}
    (hr : (rulePlace place rule).Reached job.document) {compile : Place → Step ModelType}
    (hc : job.Compiles pending compile) (hdone : job.IsShared done) :
    Meets (· = done) (job.fieldBy compile place rule)
      (fun field after => job.Grows pending done after field.kind.parts ∧ job.Suits place rule field)
      fun _ => True := by
  unfold fieldBy
  refine meets_lift (fun target hresolve => ?_) fun _ _ => trivial
  have ht := hr.resolve hresolve
  refine meets_lift (fun shape hshape => ?_) fun _ _ => trivial
  have hs : target.HasShape job.document shape := ⟨Place.noReference_of_resolve hresolve, hshape⟩
  have hfinish (kind : FieldKind) :
      Meets (fun after => job.Grows pending done after kind.parts ∧ kind.shape = shape)
        (pure ⟨rule.1, target.pointer, kind⟩ : Step Field)
        (fun field after => job.Grows pending done after field.kind.parts ∧ job.Suits place rule field)
        fun _ => True :=
    meets_pure fun after h => ⟨h.1, target, hresolve, h.2 ▸ hshape, rfl⟩
  have hnothing (kind : FieldKind) (hkind : kind.parts = []) (hsame : kind.shape = shape) :
      Meets (· = done) (pure ⟨rule.1, target.pointer, kind⟩ : Step Field)
        (fun field after => job.Grows pending done after field.kind.parts ∧ job.Suits place rule field)
        fun _ => True := by
    refine (hfinish kind).mono ?_ fun _ _ h => h
    rintro _ rfl
    exact ⟨hkind ▸ Grows.refl hdone, hsame⟩
  cases shape with
  | object =>
    have hkind : Meets (· = done) (FieldKind.object <$> compile target)
        (fun kind after => job.Grows pending done after kind.parts ∧ kind.shape = .object) fun _ => True :=
      ((hc.adds target ht hs done hdone).mono (fun _ h => h) fun _ _ h => ⟨h.grows, rfl⟩).map_result
    exact hkind.bind hfinish
  | array =>
    have hkind : Meets (· = done) (FieldKind.array <$> job.sequenceType compile target)
        (fun kind after => job.Grows pending done after kind.parts ∧ kind.shape = .array) fun _ => True :=
      ((shares_sequenceType hd ht hs hc hdone).mono (fun _ h => h) fun _ _ h => ⟨h, rfl⟩).map_result
    exact hkind.bind hfinish
  | union => exact hnothing .union rfl rfl
  | scalar => exact hnothing .scalar rfl rfl

/-- The fields of an object, one after the other. -/
theorem shares_mapM_fieldBy (hd : job.document.hasDistinctNames) {compile : Place → Step ModelType}
    (hc : job.Compiles pending compile) (rules : List (String × Json))
    (hr : ∀ rule ∈ rules, (rulePlace place rule).Reached job.document)
    (hdone : job.IsShared done) :
    Meets (· = done) (rules.mapM (job.fieldBy compile place))
      (fun fields after => job.Grows pending done after (fields.flatMap fun field => field.kind.parts) ∧
        List.Forall₂ (job.Suits place) rules fields)
      fun _ => True := by
  induction rules generalizing done with
  | nil =>
    rw [List.mapM_nil]
    refine meets_pure ?_
    rintro _ rfl
    exact ⟨Grows.refl hdone, .nil⟩
  | cons rule rules ih =>
    rw [List.mapM_cons]
    have hfirst := shares_fieldBy hd (hr rule List.mem_cons_self) hc hdone
    refine hfirst.bind fun field => ?_
    rintro mid ⟨hgrows, hsuits⟩
    have hrest := ih (fun rule hrule => hr rule (List.mem_cons_of_mem _ hrule)) hgrows.shared
    refine (hrest.bind fun fields => meets_pure fun after h => ?_) mid rfl
    rw [List.flatMap_cons]
    exact ⟨hgrows.trans h.1, .cons hsuits h.2⟩

theorem adds_modelTypeIn (hd : job.document.hasDistinctNames) (depth : Nat) (pending : List String)
    (hp : place.Reached job.document) (hs : place.HasShape job.document .object) (hdone : job.IsShared done) :
    Meets (· = done) (job.modelTypeIn depth pending place) (job.AddsModel pending place done) fun _ => True := by
  induction depth generalizing pending place done with
  | zero => exact meets_throw trivial
  | succ depth ih =>
    refine meets_of_ensures (ensures_modelTypeIn hd (depth + 1) pending hp hs) hdone.origins ?_
    unfold modelTypeIn
    refine meets_get_bind ?_
    split
    · rename_i type htype
      obtain ⟨same, hpointer, hfor⟩ := hdone.origins.1 _ _ htype
      have hhas : done.Has (.model type) := by
        rw [← hpointer, ← hfor.isHanded.pointer_eq] at htype
        exact htype
      refine meets_pure fun after h _ => ?_
      obtain rfl := h
      exact ⟨hdone.grows_of_has hhas, fun _ _ _ hnone => hnone⟩
    · rename_i hnone
      split
      · have hthrow : Meets (· = done) (throw (.cyclic place.pointer) : Step PUnit) (fun _ _ => False)
            fun _ => True := meets_throw trivial
        exact hthrow.bind fun _ _ h => h.elim
      · rename_i hnew
        refine meets_lift (fun rules hrules => ?_) fun _ _ => trivial
        have hreached (rule : String × Json) (hrule : rule ∈ rules) : (rulePlace place rule).Reached job.document :=
          .property hp hs ⟨rules, rule.1, rule.2, hrules, hrule, rfl⟩
        have hcompiles : job.Compiles (place.pointer :: pending) (job.modelTypeIn depth (place.pointer :: pending)) :=
          ⟨fun object ho hshape => ensures_modelTypeIn hd depth _ ho hshape,
            fun object ho hshape done hdone => ih _ ho hshape hdone⟩
        refine (shares_mapM_fieldBy hd hcompiles rules hreached hdone).bind fun fields => ?_
        rintro mid ⟨hgrows, hsuits⟩
        -- The object is pending while its fields are compiled, so that none of them finishes it.
        have hmid : mid.models.lookup place.pointer = none := hgrows.spares _ List.mem_cons_self hnone
        refine ((finishes_model job place _ fields mid).mono (fun _ h => h) fun type after h horigins => ?_) mid rfl
        obtain ⟨hpointer, rfl, rfl⟩ := h
        have hfinish : job.Grows pending mid (mid.finish (standalone job.document place) (.model type))
            [.model type] := by
          refine grows_finish hgrows.shared horigins ?_ (fun inner hinner => ?_) ?_ ?_
          · rw [Blueprint.pointer, hpointer]
            exact hgrows.shared.not_mem_pointers hmid (hgrows.shared.sequences_lookup_eq_none hd hp hs)
          · obtain ⟨field, hfield, hheld⟩ := List.mem_filterMap.mp hinner
            refine hgrows.has _ (List.mem_flatMap.mpr ⟨field, hfield, ?_⟩)
            rw [FieldKind.parts_eq, hheld]
            exact List.mem_flatMap.mpr ⟨inner, List.mem_cons_self, inner.self_mem_parts⟩
          · rintro _ ⟨⟩
            exact ⟨place, rules, hp, hpointer.symm, hrules, hsuits⟩
          · rintro _ ⟨⟩
            rwa [hpointer]
        refine ⟨?_, fun array ha helement _ => ?_⟩
        · rw [ModelType.parts_eq]
          exact (hgrows.mono (List.subset_cons_self _ _)).trans hfinish
        · exact hgrows.shared.sequences_lookup_eq_none_of_object hd hmid ha helement

end Compilation
end SchemaBound
