import Mathlib.Logic.Relation
import SchemaBound.Blueprint.Compilation
import SchemaBound.Proofs.Blueprint.Names
import SchemaBound.Proofs.Json.Address

/-! The places of a document that a compilation can come to from the root, and that the pointer of such a
place addresses its node. -/
namespace SchemaBound

variable {document : Json} {place target : Place}

namespace Place

/-- The node is a reference, and the second place is its target. -/
def Refers (document : Json) (place target : Place) : Prop :=
  ∃ reference, place.node.get? "$ref" = some (.str reference) ∧ target? document reference = some target

/-- The first node is no reference, and the second place is one of the alternatives that it lists. -/
def Offers (place alternative : Place) : Prop :=
  place.node.get? "$ref" = none ∧ ∃ keyword items,
    Elements.alternatives? place.node = some (keyword, items) ∧ alternative ∈ place.entries keyword items

/-- The second place holds the rule for a field of the first one. -/
def Declares (place rule : Place) : Prop :=
  ∃ rules name node, Compilation.properties place = .ok rules ∧ (name, node) ∈ rules ∧
    rule = ⟨place.pointer ++ "/properties/" ++ Pointer.escape name, node⟩

/-- The node is no reference and has this shape. -/
structure HasShape (document : Json) (place : Place) (shape : Shape) : Prop where
  noReference : place.node.get? "$ref" = none
  ofPlace : Shape.ofPlace document place = .ok shape

/-- What can be come to from the root: targets of references, alternatives, rules for the fields of objects
and for the elements of arrays. -/
inductive Reached (document : Json) : Place → Prop
  | root : Reached document (root document)
  | reference {place target : Place} :
      Reached document place → Refers document place target → Reached document target
  | alternative {place entry : Place} :
      Reached document place → Offers place entry → Reached document entry
  | property {place rule : Place} :
      Reached document place → HasShape document place .object → Declares place rule → Reached document rule
  | element {place rule : Place} :
      Reached document place → HasShape document place .array → rule ∈ Elements.stated place →
      Reached document rule

theorem refers_of_resolveIn {hops : Nat} (h : resolveIn document hops place = .ok target) :
    Relation.ReflTransGen (Refers document) place target ∧ target.node.get? "$ref" = none := by
  induction hops generalizing place with
  | zero => cases h
  | succ hops ih =>
    unfold resolveIn at h
    split at h
    · rename_i hnone
      obtain rfl := Except.ok.inj h
      exact ⟨.refl, hnone⟩
    · rename_i reference href
      split at h
      · rename_i next hnext
        obtain ⟨hrest, hnone⟩ := ih h
        exact ⟨.head ⟨reference, href, hnext⟩ hrest, hnone⟩
      · cases h
    · cases h

/-- Nodes are resolved to nodes that are no references. -/
theorem noReference_of_resolve (h : place.resolve document = .ok target) : target.node.get? "$ref" = none :=
  (refers_of_resolveIn h).2

theorem Reached.resolve (hp : Reached document place) (h : place.resolve document = .ok target) :
    Reached document target := by
  have hrefers := (refers_of_resolveIn h).1
  clear h
  induction hrefers with
  | refl => exact hp
  | tail _ hstep ih => exact .reference ih hstep

end Place

namespace Elements

/-- What an expansion yields has been come to, and is no reference. -/
theorem reached_of_expandIn {depth : Nat} (hp : place.Reached document) {places : List Place}
    (h : expandIn document depth place = .ok places) :
    ∀ found ∈ places, found.Reached document ∧ found.node.get? "$ref" = none := by
  induction depth generalizing place places with
  | zero => cases h
  | succ depth ih =>
    unfold expandIn at h
    obtain ⟨target, htarget, h⟩ := Success.bind_eq_ok.mp h
    have ht := hp.resolve htarget
    split at h
    · obtain rfl := Success.pure_eq_ok.mp h
      intro found hf
      obtain rfl := List.mem_singleton.mp hf
      exact ⟨ht, Place.noReference_of_resolve htarget⟩
    · rename_i keyword items halt
      obtain ⟨lists, hlists, h⟩ := Success.bind_eq_ok.mp h
      obtain rfl := Success.pure_eq_ok.mp h
      intro found hf
      obtain ⟨list, hlist, hf⟩ := List.mem_flatten.mp hf
      obtain ⟨entry, hentry, hexpand⟩ := Success.exists_of_mem_results hlists hlist
      have hoffers : target.Offers entry :=
        ⟨Place.noReference_of_resolve htarget, keyword, items, halt, hentry⟩
      exact ih (.alternative ht hoffers) hexpand found hf

/-- Only objects are collected. -/
theorem object_of_survey {places objects : List Place} {others : Bool}
    (h : survey document places = .ok (objects, others)) :
    ∀ found ∈ objects, Shape.ofPlace document found = .ok .object := by
  unfold survey at h
  refine Success.foldlM_keeps
    (fun known : List Place × Bool => ∀ found ∈ known.1, Shape.ofPlace document found = .ok .object)
    (fun place _ known next hknown hnext => ?_) (fun _ hfound => absurd hfound List.not_mem_nil) h
  obtain ⟨shape, hshape, hnext⟩ := Success.bind_eq_ok.mp hnext
  split at hnext
  · obtain rfl := Success.pure_eq_ok.mp hnext
    intro found hfound
    rcases mem_insertPlace hfound with hold | rfl
    · exact hknown found hold
    · exact hshape
  · obtain rfl := Success.pure_eq_ok.mp hnext
    exact hknown

/-- The parts of an answer that there is one object. -/
theorem exists_of_object {object : Place} (h : object? document place = .ok (some object)) :
    ∃ lists, (stated place).mapM (expand document) = .ok lists ∧
      survey document lists.flatten = .ok ([object], false) := by
  unfold object? at h
  obtain ⟨lists, hlists, h⟩ := Success.bind_eq_ok.mp h
  obtain ⟨known, hsurvey, h⟩ := Success.bind_eq_ok.mp h
  refine ⟨lists, hlists, ?_⟩
  split at h
  · cases h
  · cases h
  · rename_i object'
    obtain rfl := Option.some.inj (Success.pure_eq_ok.mp h)
    exact hsurvey
  · cases h

theorem reached_of_object {object : Place} (hp : place.Reached document)
    (hs : place.HasShape document .array) (h : object? document place = .ok (some object)) :
    object.Reached document ∧ object.HasShape document .object := by
  obtain ⟨lists, hlists, hsurvey⟩ := exists_of_object h
  have hmem : object ∈ lists.flatten := mem_of_survey hsurvey _ List.mem_cons_self
  obtain ⟨list, hlist, hobject⟩ := List.mem_flatten.mp hmem
  obtain ⟨rule, hrule, hexpand⟩ := Success.exists_of_mem_results hlists hlist
  obtain ⟨hreached, hnone⟩ := reached_of_expandIn (.element hp hs hrule) hexpand object hobject
  exact ⟨hreached, hnone, object_of_survey hsurvey _ List.mem_cons_self⟩

end Elements

namespace Place

/-- Rules for fields stand in the member `properties`. -/
theorem get_of_properties {rules : List (String × Json)} {rule : String × Json}
    (h : Compilation.properties place = .ok rules) (hr : rule ∈ rules) :
    place.node.get? "properties" = some (.obj rules) := by
  unfold Compilation.properties at h
  split at h
  · obtain rfl := Except.ok.inj h
    exact absurd hr List.not_mem_nil
  · rename_i rules' hrules
    obtain rfl := Except.ok.inj h
    exact hrules
  · cases h

theorem Reached.hasDistinctNames (hd : document.hasDistinctNames) (h : Reached document place) :
    place.hasDistinctNames := by
  induction h with
  | root => exact hd
  | reference _ hrefers _ =>
    obtain ⟨reference, _, htarget⟩ := hrefers
    exact hasDistinctNames_target hd htarget
  | alternative _ hoffers ih =>
    obtain ⟨_, keyword, items, halt, hentry⟩ := hoffers
    exact hasDistinctNames_entries ih (Elements.get_of_alternatives halt) hentry
  | property _ _ hdeclares ih =>
    obtain ⟨rules, name, node, hrules, hmem, rfl⟩ := hdeclares
    exact Json.hasDistinctNames_obj (Json.hasDistinctNames_get ih (get_of_properties hrules hmem)) hmem
  | element _ _ hrule ih => exact Elements.hasDistinctNames_stated ih _ hrule

/-- The pointer of the place addresses its node. -/
def IsAddressed (document : Json) (place : Place) : Prop := document.at? place.pointer = some place.node

/-- Addressed places with one pointer are one place. -/
theorem IsAddressed.eq_of_pointer {first second : Place} (h₁ : first.IsAddressed document)
    (h₂ : second.IsAddressed document) (hpointer : first.pointer = second.pointer) : first = second := by
  have hnode : first.node = second.node := by
    unfold IsAddressed at h₁ h₂
    rw [hpointer, h₂] at h₁
    exact (Option.some.inj h₁).symm
  cases first
  cases second
  exact congrArg₂ Place.mk hpointer hnode

/-- The pointer of the place, behind its hash, leads to its node. -/
def IsLocated (document : Json) (place : Place) : Prop := document.LeadsTo place.pointer place.node

theorem isLocated_target {reference : String} (h : target? document reference = some target) :
    target.IsLocated document := by
  unfold target? at h
  split at h
  · obtain ⟨node, hnode, h⟩ := Option.bind_eq_some_iff.mp h
    obtain rfl := Option.some.inj h
    exact Json.leadsTo_of_pointer hnode
  · cases h

/-- A member under a keyword, at the pointer with the keyword behind it. -/
private theorem isLocated_keyword {keyword : String} {v : Json} (hk : Pointer.Writes keyword keyword)
    (hp : place.IsLocated document) (hv : place.node.get? keyword = some v) :
    IsLocated document ⟨place.pointer ++ "/" ++ keyword, v⟩ :=
  hp.child hk (Json.childNamed_of_get hv)

theorem isLocated_entries {keyword : String} {items : List Json} (hk : Pointer.Writes keyword keyword)
    (hp : place.IsLocated document) (hitems : place.node.get? keyword = some (.arr items)) {entry : Place}
    (h : entry ∈ place.entries keyword items) : entry.IsLocated document := by
  obtain ⟨⟨item, i⟩, hitem, rfl⟩ := List.mem_map.mp h
  have hlist := isLocated_keyword hk hp hitems
  have hchild := Json.childNamed_index (List.mem_zipIdx_iff_getElem?.mp hitem)
  exact hlist.child (Pointer.writes_index i) hchild

private theorem writes_keyword {keyword : String}
    (h : keyword ∈ ["anyOf", "oneOf", "prefixItems", "items", "properties"]) :
    Pointer.Writes keyword keyword := by
  simp only [List.mem_cons, List.not_mem_nil, or_false] at h
  rcases h with rfl | rfl | rfl | rfl | rfl <;> exact Pointer.writes_of_not_mem (by decide) (by decide)

theorem keyword_of_alternatives {node : Json} {keyword : String} {items : List Json}
    (h : Elements.alternatives? node = some (keyword, items)) : keyword = "anyOf" ∨ keyword = "oneOf" := by
  unfold Elements.alternatives? at h
  split at h
  · cases h
  · split at h
    · exact Or.inl (Prod.mk.inj (Option.some.inj h)).1.symm
    · obtain ⟨_, _, h⟩ := Option.map_eq_some_iff.mp h
      exact Or.inr (Prod.mk.inj h).1.symm

theorem isLocated_alternative (hp : place.IsLocated document) {entry : Place}
    (h : place.Offers entry) : entry.IsLocated document := by
  obtain ⟨_, keyword, items, halt, hentry⟩ := h
  have hw : Pointer.Writes keyword keyword := by
    rcases keyword_of_alternatives halt with rfl | rfl <;> exact writes_keyword (by simp)
  exact isLocated_entries hw hp (Elements.get_of_alternatives halt) hentry

theorem isLocated_declared (hd : place.hasDistinctNames) (hp : place.IsLocated document) {rule : Place}
    (h : place.Declares rule) : rule.IsLocated document := by
  obtain ⟨rules, name, node, hrules, hmem, rfl⟩ := h
  have hget := get_of_properties hrules hmem
  have hmap := isLocated_keyword (writes_keyword (by simp)) hp hget
  have hnames := Json.nodup_names (Json.hasDistinctNames_get hd hget)
  have hlookup : (Json.obj rules).get? name = some node := Json.lookup_of_mem hnames hmem
  have htext : place.pointer ++ "/properties/" ++ Pointer.escape name =
      place.pointer ++ "/" ++ "properties" ++ "/" ++ Pointer.escape name := by
    simp only [String.append_assoc]
    rfl
  rw [IsLocated, htext]
  exact hmap.child (Pointer.writes_escape name) (Json.childNamed_of_get hlookup)

theorem isLocated_stated (hp : place.IsLocated document) {rule : Place}
    (h : rule ∈ Elements.stated place) : rule.IsLocated document := by
  rcases List.mem_append.mp h with h | h
  · split at h
    · rename_i items hitems
      exact isLocated_entries (writes_keyword (by simp)) hp hitems h
    · cases h
  · split at h
    · rename_i items hitems
      exact isLocated_entries (writes_keyword (by simp)) hp hitems h
    · rename_i item _ hitem
      obtain rfl := List.mem_singleton.mp h
      have hrule := isLocated_keyword (writes_keyword (by simp)) hp hitem
      rwa [String.append_assoc] at hrule
    · cases h

/-- Wherever a compilation comes to, it writes a pointer that leads to the node there. -/
theorem Reached.isLocated (hd : document.hasDistinctNames) (h : Reached document place) :
    place.IsLocated document := by
  induction h with
  | root => exact Json.leadsTo_root document
  | reference _ hrefers _ =>
    obtain ⟨reference, _, htarget⟩ := hrefers
    exact isLocated_target htarget
  | alternative _ hoffers ih => exact isLocated_alternative ih hoffers
  | property hp _ hdeclares ih => exact isLocated_declared (hp.hasDistinctNames hd) ih hdeclares
  | element _ _ hrule ih => exact isLocated_stated ih hrule

theorem Reached.isAddressed (hd : document.hasDistinctNames) (h : Reached document place) :
    place.IsAddressed document := (h.isLocated hd).at

/-- Places with one pointer are one place. -/
theorem Reached.eq_of_pointer (hd : document.hasDistinctNames) {first second : Place}
    (h₁ : Reached document first) (h₂ : Reached document second) (hpointer : first.pointer = second.pointer) :
    first = second := (h₁.isAddressed hd).eq_of_pointer (h₂.isAddressed hd) hpointer

end Place
end SchemaBound
