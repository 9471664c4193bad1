import SchemaBound.Proofs.Blueprint.Sharing
import SchemaBound.Proofs.Blueprint.Throughout
import SchemaBound.Proofs.Json.Contents

/-! Pointers of compiled types and of their fields. Each one leads to the node that the type or the field was compiled
from, whatever references, alternatives and names were on the way. -/
namespace SchemaBound
open Relation

namespace Json

/-- Every position in it, if it is a list, fits an index in a pointer that reads. -/
def isShortList : Json → Bool
  | .arr items => items.length ≤ Nat.pow 2 64
  | _ => true

/-- No list inside the document is too long for a pointer that reads. -/
def hasShortLists (document : Json) : Bool := (document :: document.contents).all isShortList

variable {document v w : Json} {token : String}

theorem mem_contents_of_childNamed (h : v.childNamed? token = some w) : w ∈ v.contents := by
  cases v with
  | obj members => exact mem_contents_of_lookup h
  | arr items =>
    obtain ⟨i, _, hw⟩ := Option.bind_eq_some_iff.mp h
    rw [contents]
    exact mem_itemContents (List.mem_of_getElem? hw)
  | _ => cases h

theorem hasShortLists_childNamed (h : v.hasShortLists) (hchild : v.childNamed? token = some w) : w.hasShortLists := by
  have hw := mem_contents_of_childNamed hchild
  refine List.all_eq_true.mpr fun part hpart => List.all_eq_true.mp h part (List.mem_cons_of_mem _ ?_)
  rcases List.mem_cons.mp hpart with rfl | hinside
  · exact hw
  · exact contents_trans _ hw hinside

theorem childAt_of_childNamed (h : v.hasShortLists) (hchild : v.childNamed? token = some w) :
    v.childAt? token = some w := by
  cases v with
  | obj members => exact hchild
  | arr items =>
    obtain ⟨i, hi, hw⟩ := Option.bind_eq_some_iff.mp hchild
    obtain ⟨hlt, _⟩ := List.getElem?_eq_some_iff.mp hw
    have hbound : items.length ≤ Nat.pow 2 64 := by
      simpa [isShortList] using List.all_eq_true.mp h _ List.mem_cons_self
    rw [childAt?, Pointer.readIndex_eq_some.mpr ⟨hi, Nat.lt_of_lt_of_le hlt hbound⟩]
    exact hw
  | _ => cases hchild

theorem follow_of_walk (h : v.hasShortLists) {tokens : List String} (hwalk : v.walk? tokens = some w) :
    v.follow? tokens = some w := by
  induction tokens generalizing v with
  | nil => exact hwalk
  | cons token rest ih =>
    obtain ⟨next, hnext, hrest⟩ := Option.bind_eq_some_iff.mp hwalk
    rw [follow?, childAt_of_childNamed h hnext]
    exact ih (hasShortLists_childNamed h hnext) hrest

/-- What a pointer addresses, it reads, as long as the indices are within bounds. -/
theorem pointer_of_addressed (h : document.hasShortLists) {fragment : String}
    (haddressed : document.addressed? fragment = some v) : document.pointer? fragment = some v := by
  obtain ⟨tokens, htokens, hwalk⟩ := Option.bind_eq_some_iff.mp haddressed
  rw [pointer?_eq, htokens]
  exact follow_of_walk h hwalk

end Json

/-- The shape of the node that the type is made for. -/
def Blueprint.shape : Blueprint → Shape
  | .model _ => .object
  | .sequence _ => .array

namespace Compilation

/-- A type inside the root type is compiled from this place: the root type from what the root of the document stands
for, the type that a field holds from what its rule stands for, and the type of elements from the object that they may
be. -/
inductive MadeOf (job : Compilation) (root : Blueprint) : Blueprint → Place → Prop
  | root {place : Place} : (Place.root job.document).resolve job.document = .ok place → MadeOf job root root place
  | field {type : ModelType} {place target : Place} {rules : List (String × Json)} {rule : String × Json}
      {field : Field} {inner : Blueprint} :
      MadeOf job root (.model type) place → properties place = .ok rules → (rule, field) ∈ rules.zip type.fields →
      (rulePlace place rule).resolve job.document = .ok target → field.kind.held? = some inner →
      MadeOf job root inner target
  | element {type : SequenceType} {element : ModelType} {place object : Place} :
      MadeOf job root (.sequence type) place → Elements.object? job.document place = .ok (some object) →
      type.element = some element → MadeOf job root (.model element) object

/-- The pointer leads to the node of the place, which is no reference and has this shape. -/
structure PointsTo (job : Compilation) (pointer : String) (place : Place) (shape : Shape) : Prop where
  pointer_eq : pointer = place.pointer
  leads : job.document.LeadsTo pointer place.node
  reads : job.document.hasShortLists →
    ∃ fragment, pointer = "#" ++ fragment ∧ job.document.pointer? fragment = some place.node
  noReference : place.node.get? "$ref" = none
  classified : Shape.ofPlace job.document ⟨pointer, place.node⟩ = .ok shape

/-- The field has the name of the rule, the pointer of the node that the rule stands for, the kind for the shape of this
node, and the pointer of the type that it holds. -/
structure Describes (job : Compilation) (root : Blueprint) (place : Place) (rule : String × Json) (field : Field) :
    Prop where
  name_eq : field.name = rule.1
  exists_target : ∃ target, (rulePlace place rule).resolve job.document = .ok target ∧
    job.PointsTo field.pointer target field.kind.shape ∧
    ∀ inner, field.kind.held? = some inner → inner.pointer = field.pointer ∧ job.MadeOf root inner target

/-- The fields of the type are those that its node declares, one for each member, in their order and numbered from
zero. -/
structure HasFields (job : Compilation) (root : Blueprint) (type : ModelType) (place : Place) : Prop where
  declared : ∃ rules, (place.node.get? "properties" = some (.obj rules) ∨
      place.node.get? "properties" = none ∧ rules = []) ∧
    List.Forall₂ (job.Describes root place) rules type.fields
  slots : ∀ i field, type.fields[i]? = some field → type.slot? field.name = some i

/-- Every type inside the root type is compiled from one place, the one that its pointer leads to, and its fields are
those of this place. -/
structure PointsFaithfully (job : Compilation) (root : Blueprint) : Prop where
  made : ∀ part, root.Reaches part → ∃ place, job.MadeOf root part place
  unique : ∀ part place other, job.MadeOf root part place → job.MadeOf root part other → place = other
  types : ∀ part place, job.MadeOf root part place → job.PointsTo part.pointer place part.shape ∧
    job.engine (standalone job.document place) = .ok part.validator
  fields : ∀ type place, job.MadeOf root (.model type) place → job.HasFields root type place

variable {job : Compilation} {root part : Blueprint} {place : Place} {handed : List Place}

/-- Places of the document that have the shape are pointed to by their pointers. -/
theorem pointsTo_of_reached (hd : job.document.hasDistinctNames) (hp : place.Reached job.document) {shape : Shape}
    (hs : place.HasShape job.document shape) : job.PointsTo place.pointer place shape where
  pointer_eq := rfl
  leads := hp.isLocated hd
  reads hshort := by
    obtain ⟨fragment, hpointer, haddressed⟩ := hp.isLocated hd
    exact ⟨fragment, hpointer, Json.pointer_of_addressed hshort haddressed⟩
  noReference := hs.noReference
  classified := hs.ofPlace

/-- The type is that of the place. -/
def IsTypeOf (job : Compilation) : Blueprint → Place → Prop
  | .model type, place => type.IsFor job place
  | .sequence type, place => type.IsFor job place

theorem IsTypeOf.isHanded (h : job.IsTypeOf part place) :
    IsHanded job place part.shape part.pointer part.validator part.options := by
  cases part with
  | model type => exact ModelType.IsFor.isHanded h
  | sequence type => exact SequenceType.IsFor.isHanded h

theorem isTypeOf_held {kind : FieldKind} {target : Place} (h : kind.IsFor job target) {inner : Blueprint}
    (hheld : kind.held? = some inner) : job.IsTypeOf inner target := by
  cases kind with
  | object type | array type =>
    obtain rfl := Option.some.inj hheld
    rw [FieldKind.IsFor] at h
    exact h
  | scalar | union => cases hheld

theorem Yields.isTypeOf (hd : job.document.hasDistinctNames) (h : job.Yields root handed) :
    ∃ place, (Place.root job.document).resolve job.document = .ok place ∧ job.IsTypeOf root place := by
  cases h with
  | model hrun => exact exists_isFor_rootModel hd (congrArg Prod.fst hrun)
  | sequence hrun => exact exists_isFor_rootSequence hd (congrArg Prod.fst hrun)

section Made

variable (hd : job.document.hasDistinctNames) (h : job.Yields root handed)
include hd h

/-- A type that is compiled from a place is the type of the place, inside the root type. -/
theorem MadeOf.isTypeOf (hm : job.MadeOf root part place) : root.Reaches part ∧ job.IsTypeOf part place := by
  induction hm with
  | root hroot =>
    obtain ⟨place, hplace, htype⟩ := h.isTypeOf hd
    obtain rfl := Except.ok.inj (hplace.symm.trans hroot)
    exact ⟨.refl, htype⟩
  | @field type place target rules rule field inner _ hrules hfield hresolve hheld ih =>
    obtain ⟨hreaches, htype⟩ := ih
    have hmem := (List.of_mem_zip hfield).2
    refine ⟨hreaches.tail (List.mem_filterMap.mpr ⟨field, hmem, hheld⟩), ?_⟩
    obtain ⟨rules', hrules', hfields⟩ := ModelType.IsFor.exists_rules htype
    obtain rfl := Except.ok.inj (hrules.symm.trans hrules')
    obtain ⟨_, target', hresolve', hkind⟩ := (List.forall₂_iff_zip.mp hfields).2 hfield
    obtain rfl := Except.ok.inj (hresolve.symm.trans hresolve')
    exact isTypeOf_held hkind hheld
  | @element type element place object _ hobject helement ih =>
    obtain ⟨hreaches, htype⟩ := ih
    have hheld : Blueprint.model element ∈ (Blueprint.sequence type).held := by simp [Blueprint.held, helement]
    obtain ⟨object', hobject', hkind⟩ := SequenceType.IsFor.exists_object_of_element htype helement
    obtain rfl := Option.some.inj (Except.ok.inj (hobject.symm.trans hobject'))
    exact ⟨hreaches.tail hheld, hkind⟩

/-- Whatever the root type reaches is compiled from some place. -/
theorem exists_madeOf (hreaches : root.Reaches part) : ∃ place, job.MadeOf root part place := by
  obtain ⟨done, hgrows, _⟩ := h.exists_grows hd
  have hroot := hgrows.has root root.self_mem_parts
  induction hreaches with
  | refl =>
    obtain ⟨place, hplace, _⟩ := h.isTypeOf hd
    exact ⟨place, .root hplace⟩
  | @tail outer inner hway hheld ih =>
    obtain ⟨place, hm⟩ := ih
    have hplace := (hm.isTypeOf hd h).2.isHanded
    have hhas := hgrows.shared.has_of_reaches hroot hway
    obtain ⟨target, kind, hassigns, hkind, _⟩ := hgrows.shared.exists_assigns hd hhas hheld
    cases hassigns with
    | field haddressed hpointer hrules hfield hresolve =>
      obtain rfl := haddressed.eq_of_pointer (hplace.reached.isAddressed hd) (hpointer.trans hplace.pointer_eq)
      exact ⟨target, hm.field hrules hfield hresolve hkind⟩
    | element haddressed hpointer hobject helement =>
      obtain rfl := haddressed.eq_of_pointer (hplace.reached.isAddressed hd) (hpointer.trans hplace.pointer_eq)
      obtain rfl := Option.some.inj hkind
      exact ⟨target, hm.element hobject helement⟩

theorem hasFields_of_madeOf {type : ModelType} (hm : job.MadeOf root (.model type) place) :
    job.HasFields root type place := by
  obtain ⟨done, hgrows, _⟩ := h.exists_grows hd
  obtain ⟨hreaches, htype⟩ := hm.isTypeOf hd h
  have hplace := htype.isHanded
  have hhas := hgrows.shared.has_of_reaches (hgrows.has root root.self_mem_parts) hreaches
  obtain ⟨same, rules, haddressed, hpointer, hrules, hfields⟩ := hgrows.shared.exists_rules hd hhas
  obtain rfl := haddressed.eq_of_pointer (hplace.reached.isAddressed hd) (hpointer.trans hplace.pointer_eq)
  refine ⟨⟨rules, ?_, ?_⟩, fun i field hfield => ?_⟩
  · unfold properties at hrules
    split at hrules
    · exact Or.inr ⟨‹_›, (Except.ok.inj hrules).symm⟩
    · exact Or.inl (Except.ok.inj hrules ▸ ‹_›)
    · cases hrules
  · obtain ⟨hlength, hzip⟩ := List.forall₂_iff_zip.mp hfields
    refine List.forall₂_iff_zip.mpr ⟨hlength, fun {rule field} hmem => ?_⟩
    obtain ⟨target, htarget⟩ := hzip hmem
    have hs : target.HasShape job.document field.kind.shape :=
      ⟨Place.noReference_of_resolve htarget.resolve, htarget.shape⟩
    have hpoints : job.PointsTo field.pointer target field.kind.shape :=
      htarget.pointer_eq ▸ pointsTo_of_reached hd htarget.reached hs
    refine ⟨htarget.name_eq, target, htarget.resolve, hpoints, fun inner hheld => ⟨?_, ?_⟩⟩
    · exact (pointer_of_held htarget.isFor hheld).trans htarget.pointer_eq.symm
    · exact hm.field hrules hmem htarget.resolve hheld
  · have hfor : Blueprint.IsFor job (.model type) := ⟨_, htype⟩
    have hnames : (type.fields.map Field.name).Nodup := (hfor.comesFrom hd).names
    have hlater : type.fields.Pairwise fun first second => first.name ≠ second.name := List.pairwise_map.mp hnames
    obtain ⟨hlt, hi⟩ := List.getElem?_eq_some_iff.mp hfield
    refine List.findIdx?_eq_some_iff_getElem.mpr ⟨hlt, by rw [hi]; exact decide_eq_true rfl, fun j hj => ?_⟩
    have hne := List.pairwise_iff_getElem.mp hlater j i (Nat.lt_trans hj hlt) hlt hj
    rw [hi] at hne
    simpa using hne

end Made

/-- Whatever references and names are on the way, every pointer of a compiled type and of a field leads to the node
that it was compiled from. -/
theorem pointsFaithfully_of_yields (job : Compilation) (hd : job.document.hasDistinctNames) {root : Blueprint}
    {handed : List Place} (h : job.Yields root handed) : job.PointsFaithfully root where
  made _ hreaches := exists_madeOf hd h hreaches
  unique part place other hplace hother := by
    have hp := (hplace.isTypeOf hd h).2.isHanded
    have ho := (hother.isTypeOf hd h).2.isHanded
    exact hp.reached.eq_of_pointer hd ho.reached (hp.pointer_eq.symm.trans ho.pointer_eq)
  types part place hm := by
    have hp := (hm.isTypeOf hd h).2.isHanded
    exact ⟨hp.pointer_eq ▸ pointsTo_of_reached hd hp.reached hp.hasShape, hp.handed⟩
  fields _ _ hm := hasFields_of_madeOf hd h hm

section Samples

/-- An empty name, names that a pointer has to escape, an object among alternatives, and references. -/
def oddNames : Compilation := ⟨0, .obj [
  ("type", .str "object"),
  ("properties", .obj [
    ("", .obj [("type", .str "object"), ("properties", .obj [("m~n", .obj [("$ref", .str "#/definitions/s")])])]),
    ("a/b", .obj [("type", .str "array"), ("items", .obj [("anyOf", .arr [
      .obj [("type", .str "null")], .obj [("$ref", .str "#/properties/")]])])]),
    ("again", .obj [("$ref", .str "#/properties/a~1b")])]),
  ("definitions", .obj [("s", .obj [("type", .str "string")])])], fun _ => .ok fun _ v => .ok v, .strict⟩

theorem pointsFaithfully_oddNames : oddNames.document.hasDistinctNames ∧ oddNames.document.hasShortLists ∧
    ∃ type handed, oddNames.Yields (.model type) handed ∧
      (type.parts.map Blueprint.pointer).eraseDups = ["#/properties/", "#/properties/a~1b", "#"] ∧
      type.fields.map Field.pointer = ["#/properties/", "#/properties/a~1b", "#/properties/a~1b"] ∧
      oddNames.PointsFaithfully (.model type) := by
  have hd : oddNames.document.hasDistinctNames := by decide
  have hshort : oddNames.document.hasShortLists := by decide
  have hrun : Success.yields (run oddNames.rootModel).1 fun type =>
      (type.parts.map Blueprint.pointer).eraseDups = ["#/properties/", "#/properties/a~1b", "#"] &&
      type.fields.map Field.pointer = ["#/properties/", "#/properties/a~1b", "#/properties/a~1b"] := by
    decide +kernel
  obtain ⟨type, htype, hpointers⟩ := Success.exists_of_yields hrun
  rw [Bool.and_eq_true, decide_eq_true_eq, decide_eq_true_eq] at hpointers
  have hyields : oddNames.Yields (.model type) (run oddNames.rootModel).2 := by
    refine .model ?_
    rw [← htype]
  exact ⟨hd, hshort, type, _, hyields, hpointers.1, hpointers.2, pointsFaithfully_of_yields oddNames hd hyields⟩

end Samples

end Compilation
end SchemaBound
