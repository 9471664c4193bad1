import SchemaBound.Proofs.Json.Names

/-! The values inside a value, at any depth. -/
namespace SchemaBound.Json

mutual
/-- All values inside a value. -/
def contents : Json → List Json
  | .arr items => itemContents items
  | .obj members => memberContents members
  | _ => []

/-- The items and all values inside them. -/
def itemContents : List Json → List Json
  | [] => []
  | v :: rest => v :: (v.contents ++ itemContents rest)

/-- The values of the members and all values inside them. -/
def memberContents : List (String × Json) → List Json
  | [] => []
  | (_, v) :: rest => v :: (v.contents ++ memberContents rest)
end

mutual
theorem contents_trans (whole : Json) {part node : Json} (hpart : part ∈ whole.contents)
    (h : node ∈ part.contents) : node ∈ whole.contents := by
  cases whole with
  | arr items =>
    rw [contents] at hpart ⊢
    exact itemContents_trans items hpart h
  | obj members =>
    rw [contents] at hpart ⊢
    exact memberContents_trans members hpart h
  | _ => simp [contents] at hpart

theorem itemContents_trans (items : List Json) {part node : Json} (hpart : part ∈ itemContents items)
    (h : node ∈ part.contents) : node ∈ itemContents items := by
  cases items with
  | nil => simp [itemContents] at hpart
  | cons v rest =>
    simp only [itemContents, List.mem_cons, List.mem_append] at hpart ⊢
    rcases hpart with rfl | hpart | hpart
    · exact Or.inr (Or.inl h)
    · exact Or.inr (Or.inl (contents_trans v hpart h))
    · exact Or.inr (Or.inr (itemContents_trans rest hpart h))

theorem memberContents_trans (members : List (String × Json)) {part node : Json}
    (hpart : part ∈ memberContents members) (h : node ∈ part.contents) : node ∈ memberContents members := by
  cases members with
  | nil => simp [memberContents] at hpart
  | cons member rest =>
    obtain ⟨name, v⟩ := member
    simp only [memberContents, List.mem_cons, List.mem_append] at hpart ⊢
    rcases hpart with rfl | hpart | hpart
    · exact Or.inr (Or.inl h)
    · exact Or.inr (Or.inl (contents_trans v hpart h))
    · exact Or.inr (Or.inr (memberContents_trans rest hpart h))
end

theorem mem_memberContents {members : List (String × Json)} {name : String} {v : Json} (h : (name, v) ∈ members) :
    v ∈ memberContents members := by
  induction members with
  | nil => cases h
  | cons first rest ih =>
    obtain ⟨key, w⟩ := first
    simp only [memberContents, List.mem_cons, List.mem_append]
    rcases List.mem_cons.mp h with hfirst | hrest
    · exact Or.inl (Prod.mk.inj hfirst).2
    · exact Or.inr (Or.inr (ih hrest))

theorem mem_itemContents {items : List Json} {v : Json} (h : v ∈ items) : v ∈ itemContents items := by
  induction items with
  | nil => cases h
  | cons first rest ih =>
    simp only [itemContents, List.mem_cons, List.mem_append]
    rcases List.mem_cons.mp h with rfl | hrest
    · exact Or.inl rfl
    · exact Or.inr (Or.inr (ih hrest))

mutual
/-- Values inside a value with distinct names have distinct names. -/
theorem hasDistinctNames_of_mem_contents {v part : Json} (hv : v.hasDistinctNames) (h : part ∈ v.contents) :
    part.hasDistinctNames := by
  cases v with
  | arr items =>
    rw [contents] at h
    exact hasDistinctNames_of_mem_itemContents (hasDistinctNames_arr_iff.mp hv) h
  | obj members =>
    rw [contents] at h
    exact hasDistinctNames_of_mem_memberContents (hasDistinctNames_obj_iff.mp hv).2 h
  | _ => simp [contents] at h

theorem hasDistinctNames_of_mem_itemContents {items : List Json} {part : Json}
    (hitems : ∀ v ∈ items, v.hasDistinctNames) (h : part ∈ itemContents items) : part.hasDistinctNames := by
  cases items with
  | nil => simp [itemContents] at h
  | cons v rest =>
    obtain ⟨hv, hrest⟩ := List.forall_mem_cons.mp hitems
    simp only [itemContents, List.mem_cons, List.mem_append] at h
    rcases h with rfl | h | h
    · exact hv
    · exact hasDistinctNames_of_mem_contents hv h
    · exact hasDistinctNames_of_mem_itemContents hrest h

theorem hasDistinctNames_of_mem_memberContents {members : List (String × Json)} {part : Json}
    (hmembers : ∀ member ∈ members, member.2.hasDistinctNames) (h : part ∈ memberContents members) :
    part.hasDistinctNames := by
  cases members with
  | nil => simp [memberContents] at h
  | cons member rest =>
    obtain ⟨name, v⟩ := member
    obtain ⟨hv, hrest⟩ := List.forall_mem_cons.mp hmembers
    simp only [memberContents, List.mem_cons, List.mem_append] at h
    rcases h with rfl | h | h
    · exact hv
    · exact hasDistinctNames_of_mem_contents hv h
    · exact hasDistinctNames_of_mem_memberContents hrest h
end

variable {members : List (String × Json)} {key : String}

/-- The part of a schema that stands in a member. -/
theorem mem_contents_of_lookup {node : Json} (h : members.lookup key = some node) :
    node ∈ (Json.obj members).contents := by
  rw [contents]
  exact mem_memberContents (mem_of_lookup h)

/-- The part of a schema that stands under a name in a member. -/
theorem mem_contents_of_named {rules : List (String × Json)} (h : members.lookup key = some (.obj rules))
    {name : String} {node : Json} (hnode : rules.lookup name = some node) : node ∈ (Json.obj members).contents :=
  contents_trans _ (mem_contents_of_lookup h) (mem_contents_of_lookup hnode)

/-- The part of a schema that stands in a list in a member. -/
theorem mem_contents_of_listed {nodes : List Json} (h : members.lookup key = some (.arr nodes)) {node : Json}
    (hnode : node ∈ nodes) : node ∈ (Json.obj members).contents := by
  have hlist : node ∈ (Json.arr nodes).contents := by
    rw [contents]
    exact mem_itemContents hnode
  exact contents_trans _ (mem_contents_of_lookup h) hlist

/-- The node is the whole, or stands in it. -/
def IsPartOf (node whole : Json) : Prop := node = whole ∨ node ∈ whole.contents

section Parts

variable {node part whole : Json}

theorem IsPartOf.of_contents (h : node.IsPartOf whole) (hpart : part ∈ node.contents) : part.IsPartOf whole := by
  rcases h with rfl | hmem
  · exact .inr hpart
  · exact .inr (contents_trans whole hmem hpart)

theorem IsPartOf.trans (hpart : part.IsPartOf node) (h : node.IsPartOf whole) : part.IsPartOf whole := by
  rcases hpart with rfl | hmem
  · exact h
  · exact h.of_contents hmem

theorem IsPartOf.item {items : List Json} (h : (Json.arr items).IsPartOf whole) (hpart : part ∈ items) :
    part.IsPartOf whole := by
  refine h.of_contents ?_
  rw [contents]
  exact mem_itemContents hpart

theorem IsPartOf.member {members : List (String × Json)} (h : (Json.obj members).IsPartOf whole) {name : String}
    (hpart : (name, part) ∈ members) : part.IsPartOf whole := by
  refine h.of_contents ?_
  rw [contents]
  exact mem_memberContents hpart

theorem IsPartOf.get (h : node.IsPartOf whole) {name : String} (hpart : node.get? name = some part) :
    part.IsPartOf whole := by
  cases node with
  | obj members => exact h.member (mem_of_lookup hpart)
  | _ => cases hpart

end Parts

section Induction

variable {P : Json → Prop}

mutual
private theorem holds_throughout (h : ∀ v : Json, (∀ part ∈ v.contents, P part) → P v) : ∀ v : Json,
    P v ∧ ∀ part ∈ v.contents, P part
  | .arr items => by
    have hparts : ∀ part ∈ (Json.arr items).contents, P part := by
      rw [contents]
      exact items_hold_throughout h items
    exact ⟨h _ hparts, hparts⟩
  | .obj members => by
    have hparts : ∀ part ∈ (Json.obj members).contents, P part := by
      rw [contents]
      exact members_hold_throughout h members
    exact ⟨h _ hparts, hparts⟩
  | .null | .bool _ | .num _ | .str _ => by
    constructor
    · exact h _ (by simp [contents])
    · simp [contents]

private theorem items_hold_throughout (h : ∀ v : Json, (∀ part ∈ v.contents, P part) → P v) : ∀ items : List Json,
    ∀ part ∈ itemContents items, P part
  | [] => by simp [itemContents]
  | v :: rest => by
    obtain ⟨hv, hparts⟩ := holds_throughout h v
    rw [itemContents, List.forall_mem_cons, List.forall_mem_append]
    exact ⟨hv, hparts, items_hold_throughout h rest⟩

private theorem members_hold_throughout (h : ∀ v : Json, (∀ part ∈ v.contents, P part) → P v) :
    ∀ members : List (String × Json), ∀ part ∈ memberContents members, P part
  | [] => by simp [memberContents]
  | (_, v) :: rest => by
    obtain ⟨hv, hparts⟩ := holds_throughout h v
    rw [memberContents, List.forall_mem_cons, List.forall_mem_append]
    exact ⟨hv, hparts, members_hold_throughout h rest⟩
end

/-- What holds of a value whenever it holds of all values inside it holds of every value. -/
theorem contents_induction (h : ∀ v : Json, (∀ part ∈ v.contents, P part) → P v) (v : Json) : P v :=
  (holds_throughout h v).1

end Induction

end SchemaBound.Json
