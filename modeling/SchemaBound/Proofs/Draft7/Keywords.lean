import Mathlib.Logic.ExistsUnique
import Mathlib.Tactic.MkIffOfInductiveProp
import SchemaBound.Check.Draft
import SchemaBound.Proofs.Json.Contents
import SchemaBound.Proofs.Polarity
import SchemaBound.Schema.Nesting

/-! What the keywords that hold schemas demand by the rules of Draft 7: of the value, of its members and items, and of
the names of members, whatever it is for a value to be admitted by a schema. -/
namespace SchemaBound

/-- Objects and booleans are schemas. -/
def Json.isSchema (v : Json) : Bool := v.isObject || v.isBool

theorem Json.isArray_of_isSchema {node : Json} (h : node.isSchema) : node.isArray = false := by
  cases node with
  | arr items => cases h
  | _ => rfl

section Rules

variable (draft : Draft) (occurs : String → String → Prop)

/-- No rule is declared under the name, and no pattern occurs in it. -/
structure IsFurther (members : List (String × Json)) (name : String) : Prop where
  undeclared : ∀ rules, members.lookup "properties" = some (.obj rules) → rules.lookup name = none
  unmatched : ∀ patterns source node, members.lookup "patternProperties" = some (.obj patterns) →
    (source, node) ∈ patterns → ¬ occurs source name

/-- The members of a schema ask that the value, a part of it or the name of a member is admitted by a schema in
them. -/
inductive Demands (members : List (String × Json)) : Json → Json → Json → Prop
  /-- `properties`: a rule for the member of its name. -/
  | property {rules data : List (String × Json)} {name : String} {node x : Json} :
      members.lookup "properties" = some (.obj rules) → rules.lookup name = some node → data.lookup name = some x →
      Demands members (.obj data) node x
  /-- `patternProperties`: a rule for every member that its pattern occurs in the name of. -/
  | matched {patterns data : List (String × Json)} {source name : String} {node x : Json} :
      members.lookup "patternProperties" = some (.obj patterns) → (source, node) ∈ patterns → (name, x) ∈ data →
      occurs source name → Demands members (.obj data) node x
  /-- `additionalProperties`: a rule for the other members. -/
  | further {data : List (String × Json)} {name : String} {node x : Json} :
      members.lookup "additionalProperties" = some node → (name, x) ∈ data → IsFurther occurs members name →
      Demands members (.obj data) node x
  /-- `items`: one rule for all items. -/
  | item {items : List Json} {node x : Json} :
      members.lookup "items" = some node → node.isSchema → x ∈ items → Demands members (.arr items) node x
  /-- `items`: rules for the first items by their position. -/
  | entry {nodes items : List Json} {i : Nat} {node x : Json} :
      members.lookup "items" = some (.arr nodes) → nodes[i]? = some node → items[i]? = some x →
      Demands members (.arr items) node x
  /-- `additionalItems`: a rule for the items after those that have one by their position. -/
  | furtherItem {nodes items : List Json} {i : Nat} {node x : Json} :
      members.lookup "items" = some (.arr nodes) → members.lookup "additionalItems" = some node → node.isSchema →
      nodes.length ≤ i → items[i]? = some x → Demands members (.arr items) node x
  /-- `propertyNames`: a rule for the names of members. -/
  | name {data : List (String × Json)} {name : String} {node x : Json} :
      draft.knows "propertyNames" → members.lookup "propertyNames" = some node → node.isSchema → (name, x) ∈ data →
      Demands members (.obj data) node (.str name)
  /-- `allOf`: every one of the rules. -/
  | allOf {nodes : List Json} {v node : Json} :
      members.lookup "allOf" = some (.arr nodes) → node ∈ nodes → Demands members v node v
  /-- `dependencies`: a rule for objects that have a member of its name. -/
  | dependency {list data : List (String × Json)} {name : String} {node : Json} :
      members.lookup "dependencies" = some (.obj list) → (name, node) ∈ list → node.isArray = false →
      (data.lookup name).isSome → Demands members (.obj data) node (.obj data)

/-- The schemas in the members of a schema among which some have to admit the value, or one of its items, and others
must not. -/
@[mk_iff]
structure Chooses (admits : Json → Json → Prop) (members : List (String × Json)) (v : Json) : Prop where
  /-- At least one admits the value. -/
  anyOf : ∀ nodes, members.lookup "anyOf" = some (.arr nodes) → ∃ node, node ∈ nodes ∧ admits node v
  /-- Exactly one admits the value. -/
  oneOf : ∀ nodes : List Json, members.lookup "oneOf" = some (.arr nodes) →
    ∃! i : Nat, ∃ node, nodes[i]? = some node ∧ admits node v
  /-- It does not admit the value. -/
  not : ∀ node, members.lookup "not" = some node → ¬ admits node v
  /-- It admits at least one of the items. -/
  contains : draft.knows "contains" → ∀ node, members.lookup "contains" = some node → ∀ items, v = .arr items →
    ∃ x, x ∈ items ∧ admits node x
  /-- Where `if` admits the value, `then` does. -/
  holds : draft.knows "if" → ∀ condition, members.lookup "if" = some condition →
    ∀ node, members.lookup "then" = some node → admits condition v → admits node v
  /-- Where `if` does not admit the value, `else` does. -/
  fails : draft.knows "if" → ∀ condition, members.lookup "if" = some condition →
    ∀ node, members.lookup "else" = some node → ¬ admits condition v → admits node v

/-- Objects have the members whose names the schema lists. -/
@[mk_iff]
structure Requires (members : List (String × Json)) (v : Json) : Prop where
  /-- Names that are required of every object. -/
  required : ∀ names data name, members.lookup "required" = some (.arr names) → v = .obj data →
    Json.str name ∈ names → (data.lookup name).isSome
  /-- Names that are required of objects that have a member of another name. -/
  dependencies : ∀ list data name names other, members.lookup "dependencies" = some (.obj list) → v = .obj data →
    (data.lookup name).isSome → (name, Json.arr names) ∈ list → Json.str other ∈ names → (data.lookup other).isSome

/-- The value meets what the members of a schema ask of it, other than by the keywords that look at the value alone. -/
@[mk_iff]
structure MeetsRules (admits : Json → Json → Prop) (members : List (String × Json)) (v : Json) : Prop where
  demands : ∀ node x, Demands draft occurs members v node x → admits node x
  choices : Chooses draft admits members v
  requirements : Requires members v

/-- Whether a schema admits the value, or a part of it, counts in this way for what the members ask. -/
inductive Poses (members : List (String × Json)) : Polarity → Json → Json → Json → Prop
  | demand {v node x : Json} : Demands draft occurs members v node x → Poses members .positive v node x
  | anyOf {nodes : List Json} {v node : Json} :
      members.lookup "anyOf" = some (.arr nodes) → node ∈ nodes → Poses members .positive v node v
  | oneOf {nodes : List Json} {v node : Json} :
      members.lookup "oneOf" = some (.arr nodes) → node ∈ nodes → Poses members .mixed v node v
  | not {v node : Json} : members.lookup "not" = some node → Poses members .negative v node v
  | contains {items : List Json} {node x : Json} :
      draft.knows "contains" → members.lookup "contains" = some node → x ∈ items →
      Poses members .positive (.arr items) node x
  | condition {v node : Json} :
      draft.knows "if" → members.lookup "if" = some node →
      (members.lookup "then").isSome ∨ (members.lookup "else").isSome → Poses members .mixed v node v
  | holds {v node : Json} :
      draft.knows "if" → (members.lookup "if").isSome → members.lookup "then" = some node →
      Poses members .positive v node v
  | fails {v node : Json} :
      draft.knows "if" → (members.lookup "if").isSome → members.lookup "else" = some node →
      Poses members .positive v node v

end Rules

variable {draft : Draft} {occurs : String → String → Prop} {admits admits' : Json → Json → Prop}
  {members members' : List (String × Json)} {v node x : Json} {polarity : Polarity}

/-- What the members of a schema choose among counts for the choice as it is posed. -/
theorem Chooses.implies
    (h : ∀ way node x, Poses draft occurs members way v node x →
      (way.times polarity).Implies (admits node x) (admits' node x)) :
    polarity.Implies (Chooses draft admits members v) (Chooses draft admits' members v) := by
  have hpositive {node x : Json} (hposes : Poses draft occurs members .positive v node x) :
      polarity.Implies (admits node x) (admits' node x) := h .positive node x hposes
  have hmixed {node x : Json} (hposes : Poses draft occurs members .mixed v node x) : admits node x ↔ admits' node x :=
    h .mixed node x hposes
  rw [chooses_iff, chooses_iff]
  refine .and ?_ (.and ?_ (.and ?_ (.and ?_ (.and ?_ ?_))))
  · exact .forall fun nodes => .forall fun hnodes => .exists_mem fun node hnode => hpositive (.anyOf hnodes hnode)
  · refine .forall fun nodes => .forall fun hnodes => polarity.implies_of_iff (existsUnique_congr fun i => ?_)
    refine exists_congr fun node => and_congr_right fun hnode => ?_
    exact hmixed (.oneOf hnodes (List.mem_of_getElem? hnode))
  · exact .forall fun node => .forall fun hnode => .not (h .negative node v (.not hnode))
  · refine .forall fun hknows => .forall fun node => .forall fun hnode => .forall fun items => .forall fun hv => ?_
    subst hv
    exact .exists_mem fun x hx => hpositive (.contains hknows hnode hx)
  · refine .forall fun hknows => .forall fun condition => .forall fun hcondition => .forall fun node =>
      .forall fun hnode => .of_condition ?_ ?_
    · exact hmixed (.condition hknows hcondition (.inl (Option.isSome_of_eq_some hnode)))
    · exact hpositive (.holds hknows (Option.isSome_of_eq_some hcondition) hnode)
  · refine .forall fun hknows => .forall fun condition => .forall fun hcondition => .forall fun node =>
      .forall fun hnode => .of_condition ?_ ?_
    · exact not_congr (hmixed (.condition hknows hcondition (.inr (Option.isSome_of_eq_some hnode))))
    · exact hpositive (.fails hknows (Option.isSome_of_eq_some hcondition) hnode)

/-- What the members of a schema ask is met as far as the schemas in them admit what is posed. -/
theorem MeetsRules.implies
    (h : ∀ way node x, Poses draft occurs members way v node x →
      (way.times polarity).Implies (admits node x) (admits' node x)) :
    polarity.Implies (MeetsRules draft occurs admits members v) (MeetsRules draft occurs admits' members v) := by
  rw [meetsRules_iff, meetsRules_iff]
  refine .and ?_ (.and (Chooses.implies h) (polarity.implies_refl _))
  exact .forall fun node => .forall fun x => .forall fun hdemands => h .positive node x (.demand hdemands)

theorem MeetsRules.congr
    (h : ∀ way node x, Poses draft occurs members way v node x → (admits node x ↔ admits' node x)) :
    MeetsRules draft occurs admits members v ↔ MeetsRules draft occurs admits' members v := by
  have himplies : Polarity.mixed.Implies (MeetsRules draft occurs admits members v)
      (MeetsRules draft occurs admits' members v) := by
    refine MeetsRules.implies fun way node x hposes => ?_
    rw [Polarity.times_mixed]
    exact h way node x hposes
  exact himplies

section Parts

/-- Schemas that are posed stand in the schema that poses them. -/
theorem Demands.mem_contents (h : Demands draft occurs members v node x) : node ∈ (Json.obj members).contents := by
  have hinside {key name : String} {rules : List (String × Json)} {node : Json}
      (hrules : members.lookup key = some (.obj rules)) (hnode : (name, node) ∈ rules) :
      node ∈ (Json.obj members).contents := by
    refine Json.contents_trans _ (Json.mem_contents_of_lookup hrules) ?_
    rw [Json.contents]
    exact Json.mem_memberContents hnode
  cases h with
  | property hrules hnode _ => exact Json.mem_contents_of_named hrules hnode
  | matched hpatterns hnode _ _ => exact hinside hpatterns hnode
  | further hnode _ _ => exact Json.mem_contents_of_lookup hnode
  | item hnode _ _ => exact Json.mem_contents_of_lookup hnode
  | entry hnodes hnode _ => exact Json.mem_contents_of_listed hnodes (List.mem_of_getElem? hnode)
  | furtherItem _ hnode _ _ _ => exact Json.mem_contents_of_lookup hnode
  | name _ hnode _ _ => exact Json.mem_contents_of_lookup hnode
  | allOf hnodes hnode => exact Json.mem_contents_of_listed hnodes hnode
  | dependency hlist hnode _ _ => exact hinside hlist hnode

theorem Poses.mem_contents {way : Polarity} (h : Poses draft occurs members way v node x) :
    node ∈ (Json.obj members).contents := by
  cases h with
  | demand hdemands => exact hdemands.mem_contents
  | anyOf hnodes hnode => exact Json.mem_contents_of_listed hnodes hnode
  | oneOf hnodes hnode => exact Json.mem_contents_of_listed hnodes hnode
  | not hnode => exact Json.mem_contents_of_lookup hnode
  | contains _ hnode _ => exact Json.mem_contents_of_lookup hnode
  | condition _ hnode _ => exact Json.mem_contents_of_lookup hnode
  | holds _ _ hnode => exact Json.mem_contents_of_lookup hnode
  | fails _ _ hnode => exact Json.mem_contents_of_lookup hnode

/-- How what a keyword asks depends on the schemas that it holds. -/
def Polarity.ofKeyword (key : String) : Polarity :=
  if key = "not" then .negative else if key = "oneOf" ∨ key = "if" then .mixed else .positive

/-- The schemas that a keyword holds. -/
def Json.schemasUnder (key : String) (w : Json) : List Json :=
  match Nesting.ofKeyword key, w with
  | .byName, .obj nodes | .dependencies, .obj nodes => nodes.map (·.2)
  | .listOrOne, .arr nodes => nodes
  | .listOrOne, node | .one, node => [node]
  | _, _ => []

/-- All schemas that the members of a schema may pose, and some more. -/
def Json.posed (members : List (String × Json)) : List (Polarity × Json) :=
  members.flatMap fun (key, w) => (schemasUnder key w).map fun node => (Polarity.ofKeyword key, node)

theorem Json.mem_posed {key : String} {w : Json} (hw : members.lookup key = some w)
    (hnode : node ∈ schemasUnder key w) :
    (Polarity.ofKeyword key, node) ∈ posed members :=
  List.mem_flatMap.mpr ⟨(key, w), mem_of_lookup hw, List.mem_map.mpr ⟨node, hnode, rfl⟩⟩

theorem Demands.mem_posed (h : Demands draft occurs members v node x) : (.positive, node) ∈ Json.posed members := by
  have hnamed {name : String} {nodes : List (String × Json)} (hnode : (name, node) ∈ nodes) : node ∈ nodes.map (·.2) :=
    List.mem_map.mpr ⟨_, hnode, rfl⟩
  cases h with
  | property hrules hnode _ => exact Json.mem_posed hrules (hnamed (Json.mem_of_lookup hnode))
  | matched hpatterns hnode _ _ => exact Json.mem_posed hpatterns (hnamed hnode)
  | further hnode _ _ => exact Json.mem_posed hnode (List.mem_singleton.mpr rfl)
  | item hnode hschema _ =>
    refine Json.mem_posed hnode ?_
    cases node with
    | obj _ | bool _ => exact List.mem_singleton.mpr rfl
    | _ => cases hschema
  | entry hnodes hnode _ => exact Json.mem_posed hnodes (List.mem_of_getElem? hnode)
  | furtherItem _ hnode _ _ _ => exact Json.mem_posed hnode (List.mem_singleton.mpr rfl)
  | name _ hnode _ _ => exact Json.mem_posed hnode (List.mem_singleton.mpr rfl)
  | allOf hnodes hnode => exact Json.mem_posed hnodes hnode
  | dependency hlist hnode _ _ => exact Json.mem_posed hlist (hnamed hnode)

theorem Poses.mem_posed {way : Polarity} (h : Poses draft occurs members way v node x) :
    (way, node) ∈ Json.posed members := by
  have hone {key : String} (hkey : Nesting.ofKeyword key = .one) (w : Json) : w ∈ Json.schemasUnder key w := by
    simp [Json.schemasUnder, hkey]
  cases h with
  | demand hdemands => exact hdemands.mem_posed
  | anyOf hnodes hnode => exact Json.mem_posed hnodes hnode
  | oneOf hnodes hnode => exact Json.mem_posed hnodes hnode
  | not hnode => exact Json.mem_posed hnode (hone (by decide) node)
  | contains _ hnode _ => exact Json.mem_posed hnode (hone (by decide) node)
  | condition _ hnode _ => exact Json.mem_posed hnode (hone (by decide) node)
  | holds _ _ hnode => exact Json.mem_posed hnode (hone (by decide) node)
  | fails _ _ hnode => exact Json.mem_posed hnode (hone (by decide) node)

/-- The values that schemas can be asked about for a value: the value, its items and members, and the names of
members. -/
def Json.asked : Json → List Json
  | .arr items => .arr items :: items
  | .obj members => .obj members :: (members.map fun member => member.2) ++ members.map fun member => .str member.1
  | v => [v]

theorem Json.self_mem_asked (v : Json) : v ∈ v.asked := by
  cases v <;> simp [asked]

theorem Demands.mem_asked (h : Demands draft occurs members v node x) : x ∈ v.asked := by
  have hmember {data : List (String × Json)} {name : String} {x : Json} (hx : (name, x) ∈ data) :
      x ∈ (Json.obj data).asked :=
    List.mem_append_left _ (List.mem_cons_of_mem _ (List.mem_map.mpr ⟨(name, x), hx, rfl⟩))
  cases h with
  | property _ _ hx => exact hmember (Json.mem_of_lookup hx)
  | matched _ _ hx _ => exact hmember hx
  | further _ hx _ => exact hmember hx
  | item _ _ hx => exact List.mem_cons_of_mem _ hx
  | entry _ _ hx => exact List.mem_cons_of_mem _ (List.mem_of_getElem? hx)
  | furtherItem _ _ _ _ hx => exact List.mem_cons_of_mem _ (List.mem_of_getElem? hx)
  | name _ _ _ hx => exact List.mem_append_right _ (List.mem_map.mpr ⟨_, hx, rfl⟩)
  | allOf _ _ => exact v.self_mem_asked
  | dependency _ _ _ _ => exact Json.self_mem_asked _

theorem Poses.mem_asked {way : Polarity} (h : Poses draft occurs members way v node x) : x ∈ v.asked := by
  cases h with
  | demand hdemands => exact hdemands.mem_asked
  | contains _ _ hx => exact List.mem_cons_of_mem _ hx
  | _ => exact v.self_mem_asked

/-- No part of a value with distinct names has a name twice. -/
theorem Json.hasDistinctNames_of_mem_asked (hv : v.hasDistinctNames) (hx : x ∈ v.asked) : x.hasDistinctNames := by
  cases v with
  | arr items =>
    rcases List.mem_cons.mp hx with rfl | hx
    · exact hv
    · exact hasDistinctNames_arr hv hx
  | obj data =>
    rcases List.mem_append.mp hx with hx | hx
    · rcases List.mem_cons.mp hx with rfl | hx
      · exact hv
      · obtain ⟨member, hmember, rfl⟩ := List.mem_map.mp hx
        exact hasDistinctNames_obj hv hmember
    · obtain ⟨member, _, rfl⟩ := List.mem_map.mp hx
      rfl
  | _ =>
    obtain rfl := List.mem_singleton.mp hx
    exact hv

end Parts
end SchemaBound
