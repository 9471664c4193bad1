import Mathlib.Logic.Relation
import SchemaBound.Check.TypeName
import SchemaBound.Coercion
import SchemaBound.Error
import SchemaBound.Proofs.Draft7.Forms

/-! Judges of schema documents that are known only by the rules of Draft 7 which they follow. Which values a schema
admits may depend on where it is read: references are relative to a location, and some lead out of the document. -/
namespace SchemaBound

/-- How schemas lead to other schemas, from the start of a document on. -/
structure Trail (Context : Type) where
  /-- Where the reading of a document starts. -/
  start : Json → Context
  /-- The draft that schemas are of there. -/
  draft : Context → Draft
  /-- Where the schemas in the members of a schema are read. The schema may have a location of its own. -/
  inside : Context → List (String × Json) → Context
  /-- The schema that a reference leads to, and where it is read. -/
  follow : Context → String → Option (Context × Json)
  /-- A pattern occurs in a name. -/
  occurs : String → String → Prop

/-- Whether a schema admits a value. -/
structure Question (Context : Type) where
  context : Context
  schema : Json
  value : Json

namespace Trail

variable {Context : Type} (I : Trail Context)

/-- To answer the first question, the second one may be asked. -/
inductive Asks : Question Context → Question Context → Prop
  | part {c : Context} {members : List (String × Json)} {way : Polarity} {v node x : Json} :
      members.lookup "$ref" = none → Poses (I.draft c) I.occurs members way v node x →
      Asks ⟨c, .obj members, v⟩ ⟨I.inside c members, node, x⟩
  | target {c d : Context} {members : List (String × Json)} {reference : String} {v node : Json} :
      members.lookup "$ref" = some (.str reference) → I.follow c reference = some (d, node) →
      Asks ⟨c, .obj members, v⟩ ⟨d, node, v⟩

/-- Questions are not asked forever. Draft 7 leaves open what a schema admits that refers to itself without end. -/
def IsFinite (c : Context) (node v : Json) : Prop := Acc (fun next question => I.Asks question next) ⟨c, node, v⟩

variable {I} {c d : Context} {members : List (String × Json)} {reference : String} {way : Polarity} {node v x : Json}

theorem IsFinite.part (h : I.IsFinite c (.obj members) v) (hnone : members.lookup "$ref" = none)
    (hposes : Poses (I.draft c) I.occurs members way v node x) : I.IsFinite (I.inside c members) node x :=
  h.inv (.part hnone hposes)

theorem IsFinite.target (h : I.IsFinite c (.obj members) v) (href : members.lookup "$ref" = some (.str reference))
    (hfollow : I.follow c reference = some (d, node)) : I.IsFinite d node v :=
  h.inv (.target href hfollow)

variable (I)

/-- From the schema where it is read, the other one is come to, whatever the values are that are asked about. -/
def Reaches (c : Context) (node : Json) (d : Context) (other : Json) : Prop :=
  Relation.ReflTransGen (fun p q : Context × Json => ∃ v x, I.Asks ⟨p.1, p.2, v⟩ ⟨q.1, q.2, x⟩) (c, node) (d, other)

end Trail

/-- What a judge goes by. -/
structure Interpretation (Context : Type) extends Trail Context where
  /-- What the keywords ask of a value that hold no schemas and list no names. -/
  own : Draft → List (String × Json) → Json → Prop
  /-- The value is a schema that can be read there. -/
  reads : Context → Json → Prop
  /-- The schema, where it is read, admits the value. -/
  admits : Context → Json → Json → Prop
  /-- The judgement of a value by a document comes to an end. -/
  ends : Json → Json → Prop

namespace Interpretation

variable {Context : Type} (I : Interpretation Context)

/-- The judge goes by the rules of Draft 7: it takes the documents that pass the inspection for schemas, and its
judgements of values are those of the reading. -/
structure IsDraft7 (inspect : Json → Except SchemaError Unit) (judge : Json → Json → List Violation) : Prop where
  /-- A judgement that comes to an end finds nothing wrong exactly if the document admits the value. -/
  judges : ∀ {document v}, inspect document = .ok () → document.hasDistinctNames → v.hasDistinctNames →
    I.ends document v → (judge document v = [] ↔ I.admits (I.start document) document v)
  /-- No judgement comes to an end that asks questions forever. -/
  finite : ∀ {document v}, I.ends document v → I.IsFinite (I.start document) document v
  /-- Documents are of Draft 7. -/
  draft_start : ∀ document, I.draft (I.start document) = .seven
  draft_inside : ∀ c members, I.draft (I.inside c members) = I.draft c
  /-- Documents that pass the inspection are schemas, -/
  reads_start : ∀ {document}, inspect document = .ok () → document.hasDistinctNames →
    I.reads (I.start document) document
  /-- and so are the schemas in them -/
  reads_part : ∀ {c members way v node x}, I.reads c (.obj members) → members.lookup "$ref" = none →
    Poses (I.draft c) I.occurs members way v node x → I.reads (I.inside c members) node
  /-- and what references lead to. -/
  reads_target : ∀ {c node reference d target}, I.reads c node → I.follow c reference = some (d, target) →
    I.reads d target
  /-- Objects and booleans are schemas, -/
  isSchema : ∀ {c node}, I.reads c node → node.isSchema
  /-- and nothing but text is a reference. -/
  isReference : ∀ {c members target}, I.reads c (.obj members) → members.lookup "$ref" = some target →
    ∃ reference, target = .str reference
  /-- Every value is admitted by `true`, and none by `false`. -/
  boolean : ∀ {c b v}, I.admits c (.bool b) v ↔ b = true
  /-- `$ref`: an object with this member stands for the schema that it leads to, whatever its other members are. -/
  reference : ∀ {c members reference v}, I.reads c (.obj members) → v.hasDistinctNames → I.IsFinite c (.obj members) v →
    members.lookup "$ref" = some (.str reference) →
    (I.admits c (.obj members) v ↔ ∃ d node, I.follow c reference = some (d, node) ∧ I.admits d node v)
  /-- Other objects admit what meets all of their keywords. -/
  keywords : ∀ {c members v}, I.reads c (.obj members) → v.hasDistinctNames → I.IsFinite c (.obj members) v →
    members.lookup "$ref" = none →
    (I.admits c (.obj members) v ↔
      MeetsRules (I.draft c) I.occurs (I.admits (I.inside c members)) members v ∧ I.own (I.draft c) members v)
  /-- What other keywords ask does not depend on those that hold schemas or list names, except that schemas for further
  items may make a difference where no items are allowed at all. -/
  own_congr : ∀ {draft members members' v},
    (∀ key, Nesting.ofKeyword key = .data → key ≠ "required" → members.lookup key = members'.lookup key) →
    (members.lookup "items" = some (.bool false) ↔ members'.lookup "items" = some (.bool false)) →
    ((members.lookup "additionalItems").isSome ↔ (members'.lookup "additionalItems").isSome) →
    I.own draft members v → I.own draft members' v
  /-- `type`: the value is of one of the types that are named. -/
  own_type : ∀ {c members v}, I.reads c (.obj members) → members.lookup "$ref" = none → (members.lookup "type").isSome →
    I.own (I.draft c) members v →
    ∃ word ∈ Coercion.declaredTypes (.obj members), ∃ name, TypeName.ofWord? word = some name ∧
      name.admits (I.draft c) v

variable {I} {inspect : Json → Except SchemaError Unit} {judge : Json → Json → List Violation} {c c' d : Context}
  {members : List (String × Json)} {reference : String} {way polarity : Polarity} {node v x : Json}

namespace IsDraft7

variable (h : I.IsDraft7 inspect judge)
include h

/-- The schema that a reference leads to decides. -/
theorem admits_reference (hreads : I.reads c (.obj members)) (hv : v.hasDistinctNames)
    (hfinite : I.IsFinite c (.obj members) v) (href : members.lookup "$ref" = some (.str reference))
    (hfollow : I.follow c reference = some (d, node)) : I.admits c (.obj members) v ↔ I.admits d node v := by
  rw [h.reference hreads hv hfinite href, hfollow]
  constructor
  · rintro ⟨_, _, hsome, hadmits⟩
    obtain ⟨rfl, rfl⟩ := Prod.mk.inj (Option.some.inj hsome)
    exact hadmits
  · exact fun hadmits => ⟨d, node, rfl, hadmits⟩

/-- A reference that leads nowhere admits nothing. -/
theorem not_admits_of_follow (hreads : I.reads c (.obj members)) (hv : v.hasDistinctNames)
    (hfinite : I.IsFinite c (.obj members) v) (href : members.lookup "$ref" = some (.str reference))
    (hfollow : I.follow c reference = none) : ¬ I.admits c (.obj members) v := by
  rw [h.reference hreads hv hfinite href, hfollow]
  simp

/-- What keywords ask that hold no schemas is not changed by the form. -/
theorem own_formMembers_iff {draft : Draft} {options : Options} :
    I.own draft (options.formMembers members) v ↔ I.own draft members v := by
  have hvalues (key : String) (hkey : Nesting.ofKeyword key = .data) (hne : key ≠ "required") :
      (options.formMembers members).lookup key = members.lookup key := Options.lookup_formMembers_data hne hkey
  have hitems : (options.formMembers members).lookup "items" = some (.bool false) ↔
      members.lookup "items" = some (.bool false) := by
    rw [Options.lookup_formMembers_single (by decide) rfl]
    simp only [eq_comm (a := Json.bool false), Options.form_eq_bool_iff, exists_eq_right]
  have hfurther : ((options.formMembers members).lookup "additionalItems").isSome ↔
      (members.lookup "additionalItems").isSome := by
    rw [Options.lookup_formMembers_one (by decide), Option.isSome_map]
  exact ⟨h.own_congr hvalues hitems hfurther,
    h.own_congr (fun key hkey hne => (hvalues key hkey hne).symm) hitems.symm hfurther.symm⟩

/-- Definitions ask for nothing. -/
theorem own_iff_of_same {draft : Draft} {members' : List (String × Json)}
    (hsame : SameButDefinitions members members') :
    I.own draft members v ↔ I.own draft members' v := by
  have hdefinitions {key : String} (hkey : Nesting.ofKeyword key = .data) : ¬ isDefinitions key := by
    rintro (rfl | rfl) <;> cases hkey
  have himp {members members' : List (String × Json)} (hsame : SameButDefinitions members members') :
      I.own draft members v → I.own draft members' v :=
    h.own_congr (fun key hkey _ => hsame key (hdefinitions hkey)) (by rw [hsame "items" (by decide)])
      (by rw [hsame "additionalItems" (by decide)])
  exact ⟨himp hsame, himp hsame.symm⟩

end IsDraft7

section Met

variable (I) in
/-- A schema that is asked about a value while a judgement goes on, and admits it. -/
structure IsMet (c : Context) (node v : Json) : Prop where
  reads : I.reads c node
  distinct : v.hasDistinctNames
  finite : I.IsFinite c node v
  admits : I.admits c node v

namespace IsMet

/-- A schema that is a reference is met together with what it leads to. -/
theorem target (hmet : I.IsMet c (.obj members) v) (h : I.IsDraft7 inspect judge)
    (href : members.lookup "$ref" = some (.str reference)) (hfollow : I.follow c reference = some (d, node)) :
    I.IsMet d node v where
  reads := h.reads_target hmet.reads hfollow
  distinct := hmet.distinct
  finite := hmet.finite.target href hfollow
  admits := (h.admits_reference hmet.reads hmet.distinct hmet.finite href hfollow).mp hmet.admits

variable (hmet : I.IsMet c (.obj members) v) (h : I.IsDraft7 inspect judge) (hnone : members.lookup "$ref" = none)
include hmet h hnone

/-- A schema that is posed is met if it admits the value. -/
theorem part (hposes : Poses (I.draft c) I.occurs members way v node x)
    (hadmits : I.admits (I.inside c members) node x) :
    I.IsMet (I.inside c members) node x where
  reads := h.reads_part hmet.reads hnone hposes
  distinct := Json.hasDistinctNames_of_mem_asked hmet.distinct hposes.mem_asked
  finite := hmet.finite.part hnone hposes
  admits := hadmits

theorem meets : MeetsRules (I.draft c) I.occurs (I.admits (I.inside c members)) members v ∧
    I.own (I.draft c) members v :=
  (h.keywords hmet.reads hmet.distinct hmet.finite hnone).mp hmet.admits

theorem demand (hdemands : Demands (I.draft c) I.occurs members v node x) : I.IsMet (I.inside c members) node x :=
  hmet.part h hnone (.demand hdemands) ((hmet.meets h hnone).1.demands node x hdemands)

/-- One of the alternatives is met. -/
theorem exists_alternative {keyword : String} (hkeyword : keyword = "anyOf" ∨ keyword = "oneOf") {nodes : List Json}
    (hnodes : members.lookup keyword = some (.arr nodes)) :
    ∃ node ∈ nodes, (∃ way, Poses (I.draft c) I.occurs members way v node v) ∧ I.IsMet (I.inside c members) node v := by
  have hchoices := (hmet.meets h hnone).1.choices
  rcases hkeyword with rfl | rfl
  · obtain ⟨node, hnode, hadmits⟩ := hchoices.anyOf nodes hnodes
    exact ⟨node, hnode, ⟨_, .anyOf hnodes hnode⟩, hmet.part h hnone (.anyOf hnodes hnode) hadmits⟩
  · obtain ⟨i, ⟨node, hi, hadmits⟩, _⟩ := hchoices.oneOf nodes hnodes
    have hnode := List.mem_of_getElem? hi
    exact ⟨node, hnode, ⟨_, .oneOf hnodes hnode⟩, hmet.part h hnone (.oneOf hnodes hnode) hadmits⟩

/-- The value is of one of the types that are named, if any are. -/
theorem exists_type (htype : (members.lookup "type").isSome) :
    ∃ word ∈ Coercion.declaredTypes (.obj members), ∃ name, TypeName.ofWord? word = some name ∧
      name.admits (I.draft c) v :=
  h.own_type hmet.reads hnone htype (hmet.meets h hnone).2

end IsMet

end Met

section Simulation

variable (I)

/-- One schema asks of schemas what another one asks of others that are related to them. -/
structure Renders (related : Polarity → Context → Json → Context → Json → Prop) (polarity : Polarity)
    (c : Context) (members : List (String × Json)) (c' : Context) (members' : List (String × Json))
    (render : Json → Json) : Prop where
  noReference : members'.lookup "$ref" = none
  draft : I.draft c = I.draft c'
  own : ∀ v, I.own (I.draft c) members v ↔ I.own (I.draft c) members' v
  meets : ∀ admits v, polarity.Implies
    (MeetsRules (I.draft c) I.occurs (fun node x => admits (render node) x) members v)
    (MeetsRules (I.draft c) I.occurs admits members' v)
  poses : ∀ way v node x, Poses (I.draft c) I.occurs members way v node x →
    Poses (I.draft c) I.occurs members' way v (render node) x ∧
      related (way.times polarity) (I.inside c members) node (I.inside c' members') (render node)

/-- Schemas that are related, each where it is read, ask the same of schemas that are related in turn. -/
structure Simulates (related : Polarity → Context → Json → Context → Json → Prop) : Prop where
  scalar : ∀ {polarity c node c' node'}, related polarity c node c' node' → node.isObject = false → node' = node
  reference : ∀ {polarity c members c' node' reference}, related polarity c (.obj members) c' node' →
    members.lookup "$ref" = some (.str reference) →
    node'.get? "$ref" = some (.str reference) ∧
      (I.follow c reference = none ∧ I.follow c' reference = none ∨
        ∃ d target d' target', I.follow c reference = some (d, target) ∧
          I.follow c' reference = some (d', target') ∧ related polarity d target d' target')
  keywords : ∀ {polarity c members c' node'}, related polarity c (.obj members) c' node' →
    members.lookup "$ref" = none →
    ∃ members' render, node' = .obj members' ∧ I.Renders related polarity c members c' members' render

variable {I}

/-- What related schemas admit is related as they are. -/
theorem Simulates.implies {related : Polarity → Context → Json → Context → Json → Prop} (hsim : I.Simulates related)
    (h : I.IsDraft7 inspect judge) {node' : Json} (hrelated : related polarity c node c' node')
    (hreads : I.reads c node) (hreads' : I.reads c' node') (hv : v.hasDistinctNames)
    (hfinite : I.IsFinite c node v) (hfinite' : I.IsFinite c' node' v) :
    polarity.Implies (I.admits c node v) (I.admits c' node' v) := by
  obtain ⟨question, hquestion⟩ : ∃ question : Question Context, question = ⟨c, node, v⟩ := ⟨_, rfl⟩
  rw [Trail.IsFinite, ← hquestion] at hfinite
  induction hfinite generalizing polarity c node v c' node' with
  | intro question _ ih =>
    subst hquestion
    have hself : I.IsFinite c node v := Acc.intro _ ‹_›
    cases node with
    | obj members =>
      cases href : members.lookup "$ref" with
      | some target =>
        obtain ⟨reference, rfl⟩ := h.isReference hreads href
        obtain ⟨href', hfollow⟩ := hsim.reference hrelated href
        cases node' with
        | obj members' =>
          have href' : members'.lookup "$ref" = some (.str reference) := href'
          rcases hfollow with ⟨hnone, hnone'⟩ | ⟨d, target, d', target', hsome, hsome', htargets⟩
          · exact polarity.implies_of_iff (iff_of_false (h.not_admits_of_follow hreads hv hself href hnone)
              (h.not_admits_of_follow hreads' hv hfinite' href' hnone'))
          · have htarget := ih ⟨d, target, v⟩ (.target href hsome) htargets (h.reads_target hreads hsome)
              (h.reads_target hreads' hsome') hv (hfinite'.target href' hsome') rfl
            exact htarget.congr (h.admits_reference hreads hv hself href hsome).symm
              (h.admits_reference hreads' hv hfinite' href' hsome').symm
        | _ => cases href'
      | none =>
        obtain ⟨members', render, rfl, hrenders⟩ := hsim.keywords hrelated href
        have hdraft := hrenders.draft
        have hparts : polarity.Implies (MeetsRules (I.draft c) I.occurs (I.admits (I.inside c members)) members v)
            (MeetsRules (I.draft c) I.occurs (fun node x => I.admits (I.inside c' members') (render node) x)
              members v) := by
          refine MeetsRules.implies fun way node x hposes => ?_
          obtain ⟨hposes', hparts⟩ := hrenders.poses way v node x hposes
          rw [hdraft] at hposes'
          exact ih ⟨I.inside c members, node, x⟩ (.part href hposes) hparts (h.reads_part hreads href hposes)
            (h.reads_part hreads' hrenders.noReference hposes') (Json.hasDistinctNames_of_mem_asked hv hposes.mem_asked)
            (hfinite'.part hrenders.noReference hposes') rfl
        have hkeywords' := h.keywords hreads' hv hfinite' hrenders.noReference
        rw [← hdraft] at hkeywords'
        have hall := (hparts.trans (hrenders.meets _ v)).and (polarity.implies_of_iff (hrenders.own v))
        exact hall.congr (h.keywords hreads hv hself href).symm hkeywords'.symm
    | bool b =>
      obtain rfl := hsim.scalar hrelated rfl
      exact polarity.implies_of_iff (h.boolean.trans h.boolean.symm)
    | _ => cases h.isSchema hreads

end Simulation

end Interpretation
end SchemaBound
