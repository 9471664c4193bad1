import SchemaBound.Schema.Basic
import SchemaBound.Proofs.Json.Members
import SchemaBound.Proofs.Json.Reader

/-! Schema documents made of values with distinct names have distinct names: gathering the flags of single
fields keeps them so. -/
namespace SchemaBound
open Json

namespace Requirement

variable {members : List (String × Json)} {name : String}

theorem hasDistinctNames_takeOut (h : (Json.obj members).hasDistinctNames) :
    (Json.obj (takeOut name members)).hasDistinctNames := by
  obtain ⟨hnodup, hall⟩ := hasDistinctNames_obj_iff.mp h
  refine hasDistinctNames_obj_iff.mpr ⟨?_, fun member hmember => ?_⟩
  · exact (perm_names_takeOut name members).nodup_iff.mpr (hnodup.erase name)
  · exact hall member (List.eraseP_subset ((perm_takeOut name members).subset hmember))

theorem hasDistinctNames_appendMissing {list : List Json} (names : List String)
    (h : ∀ v ∈ list, v.hasDistinctNames) : ∀ v ∈ appendMissing list names, v.hasDistinctNames := by
  induction names generalizing list with
  | nil => exact h
  | cons name rest ih =>
    rw [appendMissing]
    split
    · exact ih h
    · refine ih fun v hv => ?_
      rcases List.mem_append.mp hv with hold | hnew
      · exact h v hold
      · obtain rfl := List.mem_singleton.mp hnew
        simp [hasDistinctNames]

theorem hasDistinctNames_require (names : List String) (h : (Json.obj members).hasDistinctNames) :
    (Json.obj (require names members)).hasDistinctNames := by
  unfold require
  split
  · exact h
  · split
    · rename_i hnone
      obtain ⟨hnodup, hall⟩ := hasDistinctNames_obj_iff.mp h
      have habsent := lookup_eq_none_iff_not_mem.mp hnone
      have hlist : ∀ v ∈ appendMissing [] names, v.hasDistinctNames :=
        hasDistinctNames_appendMissing names fun _ h => absurd h List.not_mem_nil
      refine hasDistinctNames_obj_iff.mpr ⟨?_, fun member hmember => ?_⟩
      · rw [List.map_append, List.map_singleton]
        refine List.nodup_append.mpr ⟨hnodup, by simp, fun key hkey other hother => ?_⟩
        obtain rfl := List.mem_singleton.mp hother
        rintro rfl
        exact habsent hkey
      · rcases List.mem_append.mp hmember with hold | hnew
        · exact hall member hold
        · obtain rfl := List.mem_singleton.mp hnew
          exact hasDistinctNames_arr_iff.mpr hlist
    · rename_i list hlist
      have hold : (Json.arr list).hasDistinctNames := hasDistinctNames_get h hlist
      refine hasDistinctNames_setMember h (hasDistinctNames_arr_iff.mpr ?_)
      exact hasDistinctNames_appendMissing names (hasDistinctNames_arr_iff.mp hold)
    · exact h

theorem hasDistinctNames_dropFlag (h : (Json.obj members).hasDistinctNames) :
    (Json.obj (dropFlag members)).hasDistinctNames := by
  unfold dropFlag
  split
  · exact hasDistinctNames_takeOut h
  · exact h

theorem hoistMembers_eq_map (members : List (String × Json)) :
    hoistMembers members = members.map fun member => (member.1, hoistAt member.1 member.2) := by
  induction members with
  | nil => rfl
  | cons member rest ih => rw [hoistMembers, ih, List.map_cons]

theorem hoistRules_eq_map (rules : List (String × Json)) :
    hoistRules rules = rules.map fun rule => (rule.1, hoistRule rule.2) := by
  induction rules with
  | nil => rfl
  | cons rule rest ih => rw [hoistRules, ih, List.map_cons]

theorem hoistNamed_eq_map (nodes : List (String × Json)) :
    hoistNamed nodes = nodes.map fun node => (node.1, hoist node.2) := by
  induction nodes with
  | nil => rfl
  | cons node rest ih => rw [hoistNamed, ih, List.map_cons]

theorem hoistItems_eq_map (items : List Json) : hoistItems items = items.map hoist := by
  induction items with
  | nil => rfl
  | cons node rest ih => rw [hoistItems, ih, List.map_cons]

theorem names_hoistMembers (members : List (String × Json)) :
    (hoistMembers members).map (·.1) = members.map (·.1) := by
  rw [hoistMembers_eq_map, List.map_map]
  rfl

theorem names_hoistRules (rules : List (String × Json)) :
    (hoistRules rules).map (·.1) = rules.map (·.1) := by
  rw [hoistRules_eq_map, List.map_map]
  rfl

theorem names_hoistNamed (nodes : List (String × Json)) :
    (hoistNamed nodes).map (·.1) = nodes.map (·.1) := by
  rw [hoistNamed_eq_map, List.map_map]
  rfl

private theorem hasDistinctNames_hoisted (hn : (members.map (·.1)).Nodup)
    (h : ∀ member ∈ hoistMembers members, member.2.hasDistinctNames) :
    (Json.obj (hoistMembers members)).hasDistinctNames := by
  refine hasDistinctNames_obj_iff.mpr ⟨?_, h⟩
  rw [names_hoistMembers]
  exact hn

mutual
/-- Gathering flags keeps names distinct. -/
theorem hasDistinctNames_hoist : ∀ {v : Json}, v.hasDistinctNames → (hoist v).hasDistinctNames
  | .obj members, h => by
    obtain ⟨hnodup, hall⟩ := hasDistinctNames_obj_iff.mp h
    have hmembers := hasDistinctNames_hoisted hnodup (hasDistinctNames_hoistMembers hall)
    rw [hoist]
    exact hasDistinctNames_require _ hmembers
  | .arr _, h | .null, h | .bool _, h | .num _, h | .str _, h => by simpa [hoist] using h

theorem hasDistinctNames_hoistRule : ∀ {v : Json}, v.hasDistinctNames → (hoistRule v).hasDistinctNames
  | .obj members, h => by
    obtain ⟨hnodup, hall⟩ := hasDistinctNames_obj_iff.mp h
    have hmembers := hasDistinctNames_hoisted hnodup (hasDistinctNames_hoistMembers hall)
    rw [hoistRule]
    exact hasDistinctNames_require _ (hasDistinctNames_dropFlag hmembers)
  | .arr _, h | .null, h | .bool _, h | .num _, h | .str _, h => by simpa [hoistRule] using h

theorem hasDistinctNames_hoistMembers : ∀ {members : List (String × Json)},
    (∀ member ∈ members, member.2.hasDistinctNames) →
    ∀ member ∈ hoistMembers members, member.2.hasDistinctNames
  | [], h => h
  | (keyword, v) :: rest, h => by
    obtain ⟨hv, hrest⟩ := List.forall_mem_cons.mp h
    rw [hoistMembers]
    exact List.forall_mem_cons.mpr ⟨hasDistinctNames_hoistAt hv, hasDistinctNames_hoistMembers hrest⟩

theorem hasDistinctNames_hoistAt : ∀ {keyword : String} {v : Json},
    v.hasDistinctNames → (hoistAt keyword v).hasDistinctNames
  | keyword, .obj members, h => by
    obtain ⟨hnodup, hall⟩ := hasDistinctNames_obj_iff.mp h
    have hmembers := hasDistinctNames_hoisted hnodup (hasDistinctNames_hoistMembers hall)
    rw [hoistAt]
    split
    · split
      · refine hasDistinctNames_obj_iff.mpr ⟨?_, hasDistinctNames_hoistRules hall⟩
        rw [names_hoistRules]
        exact hnodup
      · refine hasDistinctNames_obj_iff.mpr ⟨?_, hasDistinctNames_hoistNamed hall⟩
        rw [names_hoistNamed]
        exact hnodup
    · exact hasDistinctNames_require _ hmembers
    · exact hasDistinctNames_require _ hmembers
    · exact h
    · exact h
  | keyword, .arr items, h => by
    rw [hoistAt]
    split
    · exact hasDistinctNames_arr_iff.mpr (hasDistinctNames_hoistItems (hasDistinctNames_arr_iff.mp h))
    · exact h
  | keyword, .null, h | keyword, .bool _, h | keyword, .num _, h | keyword, .str _, h => by
    simpa [hoistAt] using h

theorem hasDistinctNames_hoistRules : ∀ {rules : List (String × Json)},
    (∀ rule ∈ rules, rule.2.hasDistinctNames) → ∀ rule ∈ hoistRules rules, rule.2.hasDistinctNames
  | [], h => h
  | (name, rule) :: rest, h => by
    obtain ⟨hrule, hrest⟩ := List.forall_mem_cons.mp h
    rw [hoistRules]
    exact List.forall_mem_cons.mpr ⟨hasDistinctNames_hoistRule hrule, hasDistinctNames_hoistRules hrest⟩

theorem hasDistinctNames_hoistNamed : ∀ {nodes : List (String × Json)},
    (∀ node ∈ nodes, node.2.hasDistinctNames) → ∀ node ∈ hoistNamed nodes, node.2.hasDistinctNames
  | [], h => h
  | (name, node) :: rest, h => by
    obtain ⟨hnode, hrest⟩ := List.forall_mem_cons.mp h
    rw [hoistNamed]
    exact List.forall_mem_cons.mpr ⟨hasDistinctNames_hoist hnode, hasDistinctNames_hoistNamed hrest⟩

theorem hasDistinctNames_hoistItems : ∀ {items : List Json}, (∀ v ∈ items, v.hasDistinctNames) →
    ∀ v ∈ hoistItems items, v.hasDistinctNames
  | [], h => h
  | node :: rest, h => by
    obtain ⟨hnode, hrest⟩ := List.forall_mem_cons.mp h
    rw [hoistItems]
    exact List.forall_mem_cons.mpr ⟨hasDistinctNames_hoist hnode, hasDistinctNames_hoistItems hrest⟩
end

end Requirement

namespace Schema

/-- A schema parsed from a value with distinct names has them. -/
theorem hasDistinctNames_parse {v : Json} {schema : Schema} (hv : v.hasDistinctNames)
    (h : parse v = .ok schema) : schema.document.hasDistinctNames := by
  unfold parse at h
  split at h
  · rename_i members
    split at h
    · unfold ofDocument at h
      split at h
      · obtain rfl := Except.ok.inj h
        exact Requirement.hasDistinctNames_hoist hv
      · cases h
    · obtain rfl := Except.ok.inj h
      refine Requirement.hasDistinctNames_hoist (hasDistinctNames_obj_iff.mpr ⟨by simp, ?_⟩)
      simp only [List.forall_mem_cons]
      exact ⟨by simp [hasDistinctNames], hv, fun _ hm => absurd hm List.not_mem_nil⟩
  · cases h

/-- So has every schema that comes from text. -/
theorem hasDistinctNames_of_text {text : String} {v : Json} {schema : Schema}
    (hread : Json.parse? text = some v) (h : parse v = .ok schema) : schema.document.hasDistinctNames :=
  hasDistinctNames_parse (hasDistinctNames_of_parse hread) h

end Schema
end SchemaBound
