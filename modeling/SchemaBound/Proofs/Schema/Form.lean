import SchemaBound.Blueprint.Elements
import SchemaBound.Options
import SchemaBound.Proofs.Json.Names
import SchemaBound.Schema.Requirement

/-! The form of a schema that values are checked by: the schema itself, or what is left of it when members may be
missing. Keywords keep their places and the schemas under them. -/
namespace SchemaBound

namespace Requirement

theorem stripNamed_eq_map (members : List (String × Json)) :
    stripNamed members = members.map fun member => (member.1, strip member.2) := by
  induction members with
  | nil => rfl
  | cons member rest ih => rw [stripNamed, ih, List.map_cons]

theorem stripItems_eq_map (items : List Json) : stripItems items = items.map strip := by
  induction items with
  | nil => rfl
  | cons node rest ih => rw [stripItems, ih, List.map_cons]

theorem stripDependencies_eq_map (members : List (String × Json)) :
    stripDependencies members =
      (members.filter fun member => !member.2.isArray).map fun member => (member.1, strip member.2) := by
  induction members with
  | nil => rfl
  | cons member rest ih =>
    obtain ⟨name, node⟩ := member
    rw [stripDependencies, ih, List.filter_cons]
    cases node.isArray <;> rfl

theorem isArray_strip (v : Json) : (strip v).isArray = v.isArray := by
  cases v <;> rfl

theorem stripAt_data {key : String} (hkey : Nesting.ofKeyword key = .data) (v : Json) : stripAt key v = v := by
  cases v <;> simp [stripAt, hkey]

theorem stripMembers_append (members more : List (String × Json)) :
    stripMembers (members ++ more) = stripMembers members ++ stripMembers more := by
  induction members with
  | nil => rfl
  | cons member rest ih =>
    obtain ⟨keyword, v⟩ := member
    rw [List.cons_append, stripMembers, stripMembers, ih]
    split
    · rfl
    · rw [List.cons_append]

theorem exists_of_mem_stripMembers {members : List (String × Json)} {member : String × Json}
    (h : member ∈ stripMembers members) : ∃ v, (member.1, v) ∈ members := by
  induction members with
  | nil => cases h
  | cons first rest ih =>
    obtain ⟨keyword, v⟩ := first
    rw [stripMembers] at h
    split at h
    · obtain ⟨w, hw⟩ := ih h
      exact ⟨w, List.mem_cons_of_mem _ hw⟩
    · rcases List.mem_cons.mp h with rfl | h
      · exact ⟨v, List.mem_cons_self⟩
      · obtain ⟨w, hw⟩ := ih h
        exact ⟨w, List.mem_cons_of_mem _ hw⟩

theorem lookup_stripMembers {key : String} (hkey : key ≠ "required") (members : List (String × Json)) :
    (stripMembers members).lookup key = (members.lookup key).map (stripAt key) := by
  induction members with
  | nil => rfl
  | cons member rest ih =>
    obtain ⟨keyword, v⟩ := member
    rw [stripMembers, List.lookup_cons]
    by_cases hsame : key = keyword
    · subst hsame
      have hkept : ¬ (decide (key = "required") && v.isArray) = true := by simp [hkey]
      rw [if_neg hkept, List.lookup_cons, beq_self_eq_true]
      rfl
    · have hbeq : (key == keyword) = false := beq_eq_false_iff_ne.mpr hsame
      rw [hbeq]
      split
      · exact ih
      · rw [List.lookup_cons, hbeq]
        exact ih

theorem names_stripMembers_sublist (members : List (String × Json)) :
    ((stripMembers members).map (·.1)).Sublist (members.map (·.1)) := by
  induction members with
  | nil => exact .slnil
  | cons member rest ih =>
    rw [stripMembers, List.map_cons]
    split
    · exact ih.cons _
    · exact ih.cons_cons _

theorem names_stripDependencies_sublist (members : List (String × Json)) :
    ((stripDependencies members).map (·.1)).Sublist (members.map (·.1)) := by
  rw [stripDependencies_eq_map, List.map_map]
  exact List.filter_sublist.map _

mutual
/-- Losing requirements keeps names distinct. -/
theorem hasDistinctNames_strip {v : Json} (hv : v.hasDistinctNames) : (strip v).hasDistinctNames := by
  cases v with
  | obj members =>
    obtain ⟨hnodup, hall⟩ := Json.hasDistinctNames_obj_iff.mp hv
    rw [strip, Json.hasDistinctNames_obj_iff]
    exact ⟨hnodup.sublist (names_stripMembers_sublist members), hasDistinctNames_stripMembers hall⟩
  | _ => exact hv

theorem hasDistinctNames_stripMembers {members : List (String × Json)}
    (h : ∀ member ∈ members, member.2.hasDistinctNames) :
    ∀ member ∈ stripMembers members, member.2.hasDistinctNames := by
  cases members with
  | nil => nofun
  | cons member rest =>
    obtain ⟨hv, hrest⟩ := List.forall_mem_cons.mp h
    rw [stripMembers]
    split
    · exact hasDistinctNames_stripMembers hrest
    · exact List.forall_mem_cons.mpr ⟨hasDistinctNames_stripAt member.1 hv, hasDistinctNames_stripMembers hrest⟩

theorem hasDistinctNames_stripAt (keyword : String) {v : Json} (hv : v.hasDistinctNames) :
    (stripAt keyword v).hasDistinctNames := by
  cases v with
  | obj members =>
    obtain ⟨hnodup, hall⟩ := Json.hasDistinctNames_obj_iff.mp hv
    rw [stripAt]
    split
    · refine Json.hasDistinctNames_obj_iff.mpr ⟨?_, hasDistinctNames_stripNamed hall⟩
      rw [stripNamed_eq_map, List.map_map]
      exact hnodup
    · exact Json.hasDistinctNames_obj_iff.mpr
        ⟨hnodup.sublist (names_stripMembers_sublist members), hasDistinctNames_stripMembers hall⟩
    · exact Json.hasDistinctNames_obj_iff.mpr
        ⟨hnodup.sublist (names_stripMembers_sublist members), hasDistinctNames_stripMembers hall⟩
    · exact Json.hasDistinctNames_obj_iff.mpr
        ⟨hnodup.sublist (names_stripDependencies_sublist members), hasDistinctNames_stripDependencies hall⟩
    · exact hv
  | arr items =>
    rw [stripAt]
    split
    · exact Json.hasDistinctNames_arr_iff.mpr (hasDistinctNames_stripItems (Json.hasDistinctNames_arr_iff.mp hv))
    · exact hv
  | _ => exact hv

theorem hasDistinctNames_stripNamed {members : List (String × Json)}
    (h : ∀ member ∈ members, member.2.hasDistinctNames) : ∀ member ∈ stripNamed members, member.2.hasDistinctNames := by
  cases members with
  | nil => nofun
  | cons member rest =>
    obtain ⟨hv, hrest⟩ := List.forall_mem_cons.mp h
    rw [stripNamed]
    exact List.forall_mem_cons.mpr ⟨hasDistinctNames_strip hv, hasDistinctNames_stripNamed hrest⟩

theorem hasDistinctNames_stripDependencies {members : List (String × Json)}
    (h : ∀ member ∈ members, member.2.hasDistinctNames) :
    ∀ member ∈ stripDependencies members, member.2.hasDistinctNames := by
  cases members with
  | nil => nofun
  | cons member rest =>
    obtain ⟨hv, hrest⟩ := List.forall_mem_cons.mp h
    rw [stripDependencies]
    split
    · exact hasDistinctNames_stripDependencies hrest
    · exact List.forall_mem_cons.mpr ⟨hasDistinctNames_strip hv, hasDistinctNames_stripDependencies hrest⟩

theorem hasDistinctNames_stripItems {items : List Json} (h : ∀ v ∈ items, v.hasDistinctNames) :
    ∀ v ∈ stripItems items, v.hasDistinctNames := by
  cases items with
  | nil => nofun
  | cons node rest =>
    obtain ⟨hv, hrest⟩ := List.forall_mem_cons.mp h
    rw [stripItems]
    exact List.forall_mem_cons.mpr ⟨hasDistinctNames_strip hv, hasDistinctNames_stripItems hrest⟩
end

end Requirement

namespace Options
open Requirement

/-- The form of a node that values are checked by. -/
def form (options : Options) (node : Json) : Json := if options.allowMissing then strip node else node

variable {options : Options} {node : Json} {members : List (String × Json)} {key : String}

/-- Members of a node in the form that values are checked by. -/
def formMembers (options : Options) (members : List (String × Json)) : List (String × Json) :=
  if options.allowMissing then stripMembers members else members

theorem form_obj (options : Options) (members : List (String × Json)) :
    options.form (.obj members) = .obj (options.formMembers members) := by
  unfold form formMembers
  split
  · rw [strip]
  · rfl

theorem form_of_not_obj (h : node.isObject = false) : options.form node = node := by
  unfold form
  split
  · cases node with
    | obj members => cases h
    | _ =>
      rw [strip]
      intro _ h
      cases h
  · rfl

theorem form_eq_bool_iff {b : Bool} : options.form node = .bool b ↔ node = .bool b := by
  cases node with
  | obj members => simp [form_obj]
  | _ => rw [form_of_not_obj rfl]

theorem hasDistinctNames_form (h : node.hasDistinctNames) : (options.form node).hasDistinctNames := by
  unfold form
  split
  · exact hasDistinctNames_strip h
  · exact h

theorem formMembers_append (members more : List (String × Json)) :
    options.formMembers (members ++ more) = options.formMembers members ++ options.formMembers more := by
  unfold formMembers
  split
  · exact stripMembers_append members more
  · rfl

theorem exists_of_mem_formMembers {member : String × Json} (h : member ∈ options.formMembers members) :
    ∃ v, (member.1, v) ∈ members := by
  unfold formMembers at h
  split at h
  · exact exists_of_mem_stripMembers h
  · exact ⟨member.2, h⟩

/-- What is under a keyword in a node, in the form that values are checked by. -/
def formAt (options : Options) (key : String) (v : Json) : Json := if options.allowMissing then stripAt key v else v

theorem lookup_formMembers (hkey : key ≠ "required") :
    (options.formMembers members).lookup key = (members.lookup key).map (options.formAt key) := by
  unfold formMembers formAt
  split
  · exact lookup_stripMembers hkey members
  · exact Option.map_id'.symm

/-- Keywords without schemas keep their values. -/
theorem lookup_formMembers_data (hkey : key ≠ "required") (hdata : Nesting.ofKeyword key = .data) :
    (options.formMembers members).lookup key = members.lookup key := by
  have hsame : options.formAt key = id := by
    funext v
    unfold formAt
    split
    · exact stripAt_data hdata v
    · rfl
  rw [lookup_formMembers hkey, hsame, Option.map_id_apply]

theorem get_form_data (hkey : key ≠ "required") (hdata : Nesting.ofKeyword key = .data) :
    (options.form node).get? key = node.get? key := by
  cases node with
  | obj members =>
    rw [form_obj]
    exact lookup_formMembers_data hkey hdata
  | _ => exact congrArg (Json.get? · key) (form_of_not_obj rfl)

theorem isNullOnly_form : Elements.isNullOnly (options.form node) = Elements.isNullOnly node := by
  unfold Elements.isNullOnly
  rw [get_form_data (by decide) (by decide)]

theorem lookup_map_form (rules : List (String × Json)) (name : String) :
    (rules.map fun rule => (rule.1, options.form rule.2)).lookup name = (rules.lookup name).map options.form :=
  Json.lookup_map_values options.form rules name

theorem isArray_form : (options.form node).isArray = node.isArray := by
  unfold form
  split
  · exact isArray_strip node
  · rfl

section Nested

private theorem ne_required {nesting : Nesting} (hkey : Nesting.ofKeyword key = nesting) (hnesting : nesting ≠ .data) :
    key ≠ "required" := by
  rintro rfl
  exact hnesting hkey.symm

private theorem formAt_named (hkey : Nesting.ofKeyword key = .byName) {v : Json} {formed : List (String × Json)} :
    options.formAt key v = .obj formed ↔
      ∃ rules, v = .obj rules ∧ formed = rules.map fun rule => (rule.1, options.form rule.2) := by
  unfold formAt form
  split
  · cases v <;> simp [stripAt, hkey, stripNamed_eq_map, eq_comm]
  · cases v <;> simp [eq_comm]

private theorem formAt_list (hkey : Nesting.ofKeyword key = .listOrOne) {v : Json} {formed : List Json} :
    options.formAt key v = .arr formed ↔ ∃ nodes, v = .arr nodes ∧ formed = nodes.map options.form := by
  unfold formAt form
  split
  · cases v <;> simp [stripAt, hkey, stripItems_eq_map, eq_comm]
  · cases v <;> simp [eq_comm]

private theorem formAt_one {v : Json}
    (hkey : Nesting.ofKeyword key = .one ∨ Nesting.ofKeyword key = .listOrOne ∧ v.isArray = false) :
    options.formAt key v = options.form v := by
  unfold formAt form
  split
  · rcases hkey with hkey | ⟨hkey, harray⟩
    · cases v <;> simp [stripAt, strip, hkey]
    · cases v with
      | arr items => cases harray
      | _ => simp [stripAt, strip, hkey]
  · rfl

/-- The dependencies of an object in the form that values are checked by. -/
def formDependencies (options : Options) (list : List (String × Json)) : List (String × Json) :=
  if options.allowMissing then stripDependencies list else list

private theorem formAt_dependencies {v : Json} {formed : List (String × Json)} :
    options.formAt "dependencies" v = .obj formed ↔ ∃ list, v = .obj list ∧ formed = options.formDependencies list := by
  have hkey : Nesting.ofKeyword "dependencies" = .dependencies := by decide
  unfold formAt formDependencies
  split
  · cases v <;> simp [stripAt, hkey, eq_comm]
  · cases v <;> simp [eq_comm]

/-- Dependencies that are schemas are kept in the form. -/
theorem mem_formDependencies {list : List (String × Json)} {name : String} (hnode : node.isArray = false) :
    (name, node) ∈ options.formDependencies list ↔
      ∃ original, (name, original) ∈ list ∧ node = options.form original := by
  unfold formDependencies form
  split
  · simp only [stripDependencies_eq_map, List.mem_map, List.mem_filter, Bool.not_eq_true', Prod.mk.injEq]
    constructor
    · rintro ⟨⟨_, original⟩, ⟨hmem, _⟩, rfl, rfl⟩
      exact ⟨original, hmem, rfl⟩
    · rintro ⟨original, hmem, rfl⟩
      exact ⟨(name, original), ⟨hmem, isArray_strip original ▸ hnode⟩, rfl, rfl⟩
  · simp

theorem lookup_formMembers_named (hkey : Nesting.ofKeyword key = .byName) {formed : List (String × Json)} :
    (options.formMembers members).lookup key = some (.obj formed) ↔
      ∃ rules, members.lookup key = some (.obj rules) ∧
        formed = rules.map fun rule => (rule.1, options.form rule.2) := by
  rw [lookup_formMembers (ne_required hkey nofun), Option.map_eq_some_iff]
  simp only [formAt_named hkey]
  grind

theorem lookup_formMembers_list (hkey : Nesting.ofKeyword key = .listOrOne) {formed : List Json} :
    (options.formMembers members).lookup key = some (.arr formed) ↔
      ∃ nodes, members.lookup key = some (.arr nodes) ∧ formed = nodes.map options.form := by
  rw [lookup_formMembers (ne_required hkey nofun), Option.map_eq_some_iff]
  simp only [formAt_list hkey]
  grind

theorem lookup_formMembers_one (hkey : Nesting.ofKeyword key = .one) :
    (options.formMembers members).lookup key = (members.lookup key).map options.form := by
  rw [lookup_formMembers (ne_required hkey nofun)]
  exact Option.map_congr fun v _ => formAt_one (.inl hkey)

/-- One schema under a keyword that may hold a list as well. -/
theorem lookup_formMembers_single (hkey : Nesting.ofKeyword key = .listOrOne) (hnode : node.isArray = false) :
    (options.formMembers members).lookup key = some node ↔
      ∃ original, members.lookup key = some original ∧ node = options.form original := by
  rw [lookup_formMembers (ne_required hkey nofun), Option.map_eq_some_iff]
  refine exists_congr fun original => and_congr_right fun _ => ?_
  cases harray : original.isArray with
  | false => rw [formAt_one (.inr ⟨hkey, harray⟩), eq_comm]
  | true =>
    cases original with
    | arr nodes =>
      have hlist : options.formAt key (.arr nodes) = .arr (nodes.map options.form) :=
        (formAt_list hkey).mpr ⟨nodes, rfl, rfl⟩
      rw [hlist]
      constructor
      · rintro rfl
        cases hnode
      · intro hsame
        rw [hsame, isArray_form] at hnode
        cases hnode
    | _ => cases harray

theorem lookup_formMembers_dependencies {formed : List (String × Json)} :
    (options.formMembers members).lookup "dependencies" = some (.obj formed) ↔
      ∃ list, members.lookup "dependencies" = some (.obj list) ∧ formed = options.formDependencies list := by
  rw [lookup_formMembers (by decide), Option.map_eq_some_iff]
  simp only [formAt_dependencies]
  grind

end Nested

end Options
end SchemaBound
