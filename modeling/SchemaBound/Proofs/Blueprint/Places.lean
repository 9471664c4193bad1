import Mathlib.Data.List.Nodup
import SchemaBound.Proofs.Blueprint.Reach

/-! A finite list of all places that a compilation can come to, shorter than the bound on its depth. -/
namespace SchemaBound

namespace Json

mutual
/-- The value and all values in it, at their pointers. -/
def nodes (pointer : String) : Json → List Place
  | .arr items => ⟨pointer, .arr items⟩ :: itemNodes pointer 0 items
  | .obj members => ⟨pointer, .obj members⟩ :: memberNodes pointer members
  | v => [⟨pointer, v⟩]

/-- The items, the first of which stands at `index`, with all values in them. -/
def itemNodes (pointer : String) (index : Nat) : List Json → List Place
  | [] => []
  | v :: rest => v.nodes (pointer ++ "/" ++ toString index) ++ itemNodes pointer (index + 1) rest

/-- The members with all values in them. -/
def memberNodes (pointer : String) : List (String × Json) → List Place
  | [] => []
  | (name, v) :: rest => v.nodes (pointer ++ "/" ++ Pointer.escape name) ++ memberNodes pointer rest
end

mutual
theorem length_nodes (pointer : String) (v : Json) : (v.nodes pointer).length = v.size := by
  cases v with
  | arr items => rw [nodes, size, List.length_cons, length_itemNodes]
  | obj members => rw [nodes, size, List.length_cons, length_memberNodes]
  | _ => simp [nodes, size]

theorem length_itemNodes (pointer : String) (index : Nat) (items : List Json) :
    (itemNodes pointer index items).length = sizeItems items := by
  cases items with
  | nil => simp [itemNodes, sizeItems]
  | cons v rest => rw [itemNodes, sizeItems, List.length_append, length_nodes, length_itemNodes]

theorem length_memberNodes (pointer : String) (members : List (String × Json)) :
    (memberNodes pointer members).length = sizeMembers members := by
  cases members with
  | nil => simp [memberNodes, sizeMembers]
  | cons member rest =>
    obtain ⟨name, v⟩ := member
    rw [memberNodes, sizeMembers, List.length_append, length_nodes, length_memberNodes]
end

theorem mem_nodes_self (pointer : String) (v : Json) : ⟨pointer, v⟩ ∈ v.nodes pointer := by
  cases v <;> simp [nodes]

theorem mem_itemNodes {pointer : String} {index i : Nat} {items : List Json} {v : Json} {place : Place}
    (hv : items[i]? = some v) (h : place ∈ v.nodes (pointer ++ "/" ++ toString (index + i))) :
    place ∈ itemNodes pointer index items := by
  induction items generalizing index i with
  | nil => cases hv
  | cons first rest ih =>
    rw [itemNodes, List.mem_append]
    cases i with
    | zero =>
      obtain rfl := Option.some.inj hv
      exact Or.inl h
    | succ i =>
      rw [Nat.add_succ, ← Nat.succ_add] at h
      exact Or.inr (ih hv h)

theorem mem_memberNodes {pointer name : String} {members : List (String × Json)} {v : Json} {place : Place}
    (hv : (name, v) ∈ members) (h : place ∈ v.nodes (pointer ++ "/" ++ Pointer.escape name)) :
    place ∈ memberNodes pointer members := by
  induction members with
  | nil => cases hv
  | cons first rest ih =>
    obtain ⟨key, w⟩ := first
    rw [memberNodes, List.mem_append]
    rcases List.mem_cons.mp hv with hfirst | hrest
    · obtain ⟨rfl, rfl⟩ := Prod.mk.inj hfirst
      exact Or.inl h
    · exact Or.inr (ih hrest)

mutual
/-- What is in a part is in the whole. -/
theorem nodes_trans (pointer : String) (v : Json) {inner place : Place} (hinner : inner ∈ v.nodes pointer)
    (h : place ∈ inner.node.nodes inner.pointer) : place ∈ v.nodes pointer := by
  cases v with
  | arr items =>
    rw [nodes, List.mem_cons] at hinner ⊢
    rcases hinner with rfl | hinner
    · rw [nodes, List.mem_cons] at h
      exact h
    · exact Or.inr (itemNodes_trans pointer 0 items hinner h)
  | obj members =>
    rw [nodes, List.mem_cons] at hinner ⊢
    rcases hinner with rfl | hinner
    · rw [nodes, List.mem_cons] at h
      exact h
    · exact Or.inr (memberNodes_trans pointer members hinner h)
  | _ =>
    simp only [nodes, List.mem_singleton] at hinner
    subst hinner
    exact h

theorem itemNodes_trans (pointer : String) (index : Nat) (items : List Json) {inner place : Place}
    (hinner : inner ∈ itemNodes pointer index items) (h : place ∈ inner.node.nodes inner.pointer) :
    place ∈ itemNodes pointer index items := by
  cases items with
  | nil => simp [itemNodes] at hinner
  | cons v rest =>
    rw [itemNodes, List.mem_append] at hinner ⊢
    rcases hinner with hinner | hinner
    · exact Or.inl (nodes_trans _ v hinner h)
    · exact Or.inr (itemNodes_trans pointer (index + 1) rest hinner h)

theorem memberNodes_trans (pointer : String) (members : List (String × Json)) {inner place : Place}
    (hinner : inner ∈ memberNodes pointer members) (h : place ∈ inner.node.nodes inner.pointer) :
    place ∈ memberNodes pointer members := by
  cases members with
  | nil => simp [memberNodes] at hinner
  | cons member rest =>
    obtain ⟨name, v⟩ := member
    rw [memberNodes, List.mem_append] at hinner ⊢
    rcases hinner with hinner | hinner
    · exact Or.inl (nodes_trans _ v hinner h)
    · exact Or.inr (memberNodes_trans pointer rest hinner h)
end

mutual
/-- Which values are in a value does not depend on its pointer. -/
theorem exists_mem_nodes (first second : String) (v : Json) {place : Place} (h : place ∈ v.nodes first) :
    ∃ pointer, ⟨pointer, place.node⟩ ∈ v.nodes second := by
  cases v with
  | arr items =>
    rw [nodes, List.mem_cons] at h
    rcases h with rfl | h
    · exact ⟨second, mem_nodes_self _ _⟩
    · obtain ⟨pointer, hp⟩ := exists_mem_itemNodes first second 0 items h
      exact ⟨pointer, by rw [nodes]; exact List.mem_cons_of_mem _ hp⟩
  | obj members =>
    rw [nodes, List.mem_cons] at h
    rcases h with rfl | h
    · exact ⟨second, mem_nodes_self _ _⟩
    · obtain ⟨pointer, hp⟩ := exists_mem_memberNodes first second members h
      exact ⟨pointer, by rw [nodes]; exact List.mem_cons_of_mem _ hp⟩
  | _ =>
    simp only [nodes, List.mem_singleton] at h
    subst h
    exact ⟨second, mem_nodes_self _ _⟩

theorem exists_mem_itemNodes (first second : String) (index : Nat) (items : List Json) {place : Place}
    (h : place ∈ itemNodes first index items) : ∃ pointer, ⟨pointer, place.node⟩ ∈ itemNodes second index items := by
  cases items with
  | nil => simp [itemNodes] at h
  | cons v rest =>
    rw [itemNodes, List.mem_append] at h
    rw [itemNodes]
    rcases h with h | h
    · obtain ⟨pointer, hp⟩ := exists_mem_nodes _ (second ++ "/" ++ toString index) v h
      exact ⟨pointer, List.mem_append_left _ hp⟩
    · obtain ⟨pointer, hp⟩ := exists_mem_itemNodes first second (index + 1) rest h
      exact ⟨pointer, List.mem_append_right _ hp⟩

theorem exists_mem_memberNodes (first second : String) (members : List (String × Json)) {place : Place}
    (h : place ∈ memberNodes first members) : ∃ pointer, ⟨pointer, place.node⟩ ∈ memberNodes second members := by
  cases members with
  | nil => simp [memberNodes] at h
  | cons member rest =>
    obtain ⟨name, v⟩ := member
    rw [memberNodes, List.mem_append] at h
    rw [memberNodes]
    rcases h with h | h
    · obtain ⟨pointer, hp⟩ := exists_mem_nodes _ (second ++ "/" ++ Pointer.escape name) v h
      exact ⟨pointer, List.mem_append_left _ hp⟩
    · obtain ⟨pointer, hp⟩ := exists_mem_memberNodes first second rest h
      exact ⟨pointer, List.mem_append_right _ hp⟩
end

mutual
/-- A part is no larger than the whole. -/
theorem size_le_of_mem_nodes (pointer : String) (v : Json) {place : Place} (h : place ∈ v.nodes pointer) :
    place.node.size ≤ v.size := by
  cases v with
  | arr items =>
    rw [nodes, List.mem_cons] at h
    rcases h with rfl | h
    · exact Nat.le_refl _
    · have hle := size_le_of_mem_itemNodes pointer 0 items h
      rw [size]
      omega
  | obj members =>
    rw [nodes, List.mem_cons] at h
    rcases h with rfl | h
    · exact Nat.le_refl _
    · have hle := size_le_of_mem_memberNodes pointer members h
      rw [size]
      omega
  | _ =>
    simp only [nodes, List.mem_singleton] at h
    subst h
    exact Nat.le_refl _

theorem size_le_of_mem_itemNodes (pointer : String) (index : Nat) (items : List Json) {place : Place}
    (h : place ∈ itemNodes pointer index items) : place.node.size ≤ sizeItems items := by
  cases items with
  | nil => simp [itemNodes] at h
  | cons v rest =>
    rw [itemNodes, List.mem_append] at h
    rw [sizeItems]
    rcases h with h | h
    · have hle := size_le_of_mem_nodes _ v h
      omega
    · have hle := size_le_of_mem_itemNodes pointer (index + 1) rest h
      omega

theorem size_le_of_mem_memberNodes (pointer : String) (members : List (String × Json)) {place : Place}
    (h : place ∈ memberNodes pointer members) : place.node.size ≤ sizeMembers members := by
  cases members with
  | nil => simp [memberNodes] at h
  | cons member rest =>
    obtain ⟨name, v⟩ := member
    rw [memberNodes, List.mem_append] at h
    rw [sizeMembers]
    rcases h with h | h
    · have hle := size_le_of_mem_nodes _ v h
      omega
    · have hle := size_le_of_mem_memberNodes pointer rest h
      omega
end

theorem exists_mem_nodes_childAt (pointer : String) {token : String} {v w : Json}
    (h : v.childAt? token = some w) :
    ∃ p, ⟨p, w⟩ ∈ v.nodes pointer := by
  unfold childAt? at h
  cases v with
  | obj members =>
    have hmem := mem_memberNodes (mem_of_lookup h) (mem_nodes_self (pointer ++ "/" ++ Pointer.escape token) w)
    exact ⟨_, by rw [nodes]; exact List.mem_cons_of_mem _ hmem⟩
  | arr items =>
    obtain ⟨i, _, hi⟩ := Option.bind_eq_some_iff.mp h
    have hmem := mem_itemNodes hi (mem_nodes_self (pointer ++ "/" ++ toString (0 + i)) w)
    exact ⟨_, by rw [nodes]; exact List.mem_cons_of_mem _ hmem⟩
  | _ => cases h

theorem exists_mem_nodes_pointer {fragment : String} {v w : Json} (h : v.pointer? fragment = some w)
    (pointer : String) : ∃ p, ⟨p, w⟩ ∈ v.nodes pointer := by
  have hfollow {tokens : List String} {v : Json} (h : v.follow? tokens = some w) :
      ∃ p, ⟨p, w⟩ ∈ v.nodes pointer := by
    induction tokens generalizing v with
    | nil =>
      obtain rfl := Option.some.inj h
      exact ⟨pointer, mem_nodes_self _ _⟩
    | cons token rest ih =>
      obtain ⟨next, hnext, hrest⟩ := Option.bind_eq_some_iff.mp h
      obtain ⟨p, hp⟩ := exists_mem_nodes_childAt pointer hnext
      obtain ⟨q, hq⟩ := ih hrest
      obtain ⟨q', hq'⟩ := exists_mem_nodes pointer p next hq
      exact ⟨q', nodes_trans pointer v hp hq'⟩
  unfold pointer? at h
  split_ifs at h with hempty
  · obtain rfl := Option.some.inj h
    exact ⟨pointer, mem_nodes_self _ _⟩
  · obtain ⟨tokens, _, h⟩ := Option.bind_eq_some_iff.mp h
    exact hfollow h

end Json

namespace Place

variable {document : Json} {place target : Place}

/-- What the references of a document stand for. -/
def targets (document : Json) : List Place :=
  (document.nodes "#").filterMap fun place =>
    ((place.node.get? "$ref").bind Json.text?).bind (target? document)

/-- The root and all targets of references, with all values in them. -/
def all (document : Json) : List Place :=
  (root document :: targets document).flatMap fun base => base.node.nodes base.pointer

private theorem exists_mem_nodes_target {reference : String} (h : target? document reference = some target) :
    ∃ pointer, ⟨pointer, target.node⟩ ∈ document.nodes "#" := by
  unfold target? at h
  split at h
  · obtain ⟨node, hnode, h⟩ := Option.bind_eq_some_iff.mp h
    obtain rfl := Option.some.inj h
    exact Json.exists_mem_nodes_pointer hnode "#"
  · cases h

/-- The node of a place is somewhere in the document. -/
private theorem exists_mem_nodes_base {base : Place} (h : base ∈ root document :: targets document) :
    ∃ pointer, ⟨pointer, base.node⟩ ∈ document.nodes "#" := by
  rcases List.mem_cons.mp h with rfl | h
  · exact ⟨"#", Json.mem_nodes_self _ _⟩
  · obtain ⟨referring, _, hreference⟩ := List.mem_filterMap.mp h
    obtain ⟨reference, _, htarget⟩ := Option.bind_eq_some_iff.mp hreference
    exact exists_mem_nodes_target htarget

private theorem length_flatMap_le {bases : List Place} {bound : Nat}
    (h : ∀ base ∈ bases, base.node.size ≤ bound) :
    (bases.flatMap fun base => base.node.nodes base.pointer).length ≤ bases.length * bound := by
  induction bases with
  | nil => simp
  | cons base rest ih =>
    have hfirst := h base List.mem_cons_self
    have hrest := ih fun b hb => h b (List.mem_cons_of_mem _ hb)
    rw [List.flatMap_cons, List.length_append, Json.length_nodes, List.length_cons, Nat.succ_mul]
    omega

/-- The places of a document are fewer than a compilation may nest. -/
theorem length_all_lt (document : Json) : (all document).length < Compilation.placeBound document := by
  have hbases : (root document :: targets document).length ≤ document.size + 1 := by
    have hle := List.length_filterMap_le (fun place : Place =>
      ((place.node.get? "$ref").bind Json.text?).bind (target? document)) (document.nodes "#")
    rw [Json.length_nodes] at hle
    exact Nat.succ_le_succ hle
  have hsize : ∀ base ∈ root document :: targets document, base.node.size ≤ document.size := by
    intro base hbase
    obtain ⟨pointer, hp⟩ := exists_mem_nodes_base hbase
    have hle := Json.size_le_of_mem_nodes "#" document hp
    exact hle
  calc
    (all document).length ≤ (root document :: targets document).length * document.size :=
      length_flatMap_le hsize
    _ ≤ (document.size + 1) * document.size := Nat.mul_le_mul_right _ hbases
    _ < (document.size + 1) * (document.size + 1) := Nat.mul_lt_mul_of_pos_left (by omega) (by omega)
    _ = Compilation.placeBound document := rfl

/-- What is in a place of the list is in the list. -/
theorem mem_all_of_mem_nodes {inner : Place} (h : place ∈ all document)
    (hinner : inner ∈ place.node.nodes place.pointer) : inner ∈ all document := by
  obtain ⟨base, hbase, hplace⟩ := List.mem_flatMap.mp h
  exact List.mem_flatMap.mpr ⟨base, hbase, Json.nodes_trans _ _ hplace hinner⟩

private theorem target_mem_all (h : place ∈ all document) (hrefers : Refers document place target) :
    target ∈ all document := by
  obtain ⟨base, hbase, hplace⟩ := List.mem_flatMap.mp h
  obtain ⟨pointer, hnode⟩ := exists_mem_nodes_base hbase
  obtain ⟨p, hp⟩ := Json.exists_mem_nodes _ pointer base.node hplace
  have hdocument : ⟨p, place.node⟩ ∈ document.nodes "#" := Json.nodes_trans "#" document hnode hp
  obtain ⟨reference, href, htarget⟩ := hrefers
  have hmem : target ∈ targets document := by
    refine List.mem_filterMap.mpr ⟨_, hdocument, ?_⟩
    rw [href]
    exact htarget
  exact List.mem_flatMap.mpr ⟨target, List.mem_cons_of_mem _ hmem, Json.mem_nodes_self _ _⟩

private theorem member_mem_all {keyword : String} {v : Json} (h : place ∈ all document)
    (hv : place.node.get? keyword = some v) :
    ⟨place.pointer ++ "/" ++ Pointer.escape keyword, v⟩ ∈ all document := by
  refine mem_all_of_mem_nodes h ?_
  rcases place with ⟨pointer, node⟩
  cases node with
  | obj members =>
    rw [Json.nodes]
    exact List.mem_cons_of_mem _ (Json.mem_memberNodes (Json.mem_of_lookup hv) (Json.mem_nodes_self _ _))
  | _ => cases hv

private theorem entry_mem_all {keyword : String} {items : List Json} (hk : Pointer.escape keyword = keyword)
    (h : place ∈ all document) (hitems : place.node.get? keyword = some (.arr items)) {entry : Place}
    (hentry : entry ∈ place.entries keyword items) : entry ∈ all document := by
  obtain ⟨⟨item, i⟩, hitem, rfl⟩ := List.mem_map.mp hentry
  have hlist := member_mem_all h hitems
  rw [hk] at hlist
  refine mem_all_of_mem_nodes hlist ?_
  dsimp only
  rw [Json.nodes]
  refine List.mem_cons_of_mem _ (Json.mem_itemNodes (List.mem_zipIdx_iff_getElem?.mp hitem) ?_)
  rw [Nat.zero_add]
  exact Json.mem_nodes_self _ _

private theorem declared_mem_all {rules : List (String × Json)} {name : String} {node : Json}
    (h : place ∈ all document) (hrules : place.node.get? "properties" = some (.obj rules))
    (hmem : (name, node) ∈ rules) :
    ⟨place.pointer ++ "/properties/" ++ Pointer.escape name, node⟩ ∈ all document := by
  have hmap := member_mem_all h hrules
  have htext : place.pointer ++ "/properties/" ++ Pointer.escape name =
      place.pointer ++ "/" ++ Pointer.escape "properties" ++ "/" ++ Pointer.escape name := by
    have hk : Pointer.escape "properties" = "properties" := by decide
    rw [hk]
    simp only [String.append_assoc]
    rfl
  rw [htext]
  refine mem_all_of_mem_nodes hmap ?_
  dsimp only
  rw [Json.nodes]
  exact List.mem_cons_of_mem _ (Json.mem_memberNodes hmem (Json.mem_nodes_self _ _))

private theorem stated_mem_all {rule : Place} (h : place ∈ all document)
    (hrule : rule ∈ Elements.stated place) : rule ∈ all document := by
  rcases List.mem_append.mp hrule with hrule | hrule
  · split at hrule
    · rename_i items hitems
      exact entry_mem_all (by decide) h hitems hrule
    · cases hrule
  · split at hrule
    · rename_i items hitems
      exact entry_mem_all (by decide) h hitems hrule
    · rename_i item _ hitem
      obtain rfl := List.mem_singleton.mp hrule
      have hk : Pointer.escape "items" = "items" := by decide
      have hmem := member_mem_all h hitem
      rwa [hk, String.append_assoc] at hmem
    · cases hrule

theorem Reached.mem_all (h : Reached document place) : place ∈ all document := by
  induction h with
  | root => exact List.mem_flatMap.mpr ⟨_, List.mem_cons_self, Json.mem_nodes_self _ _⟩
  | reference _ hrefers ih => exact target_mem_all ih hrefers
  | alternative _ hoffers ih =>
    obtain ⟨_, keyword, items, halt, hentry⟩ := hoffers
    have hk : Pointer.escape keyword = keyword := by
      rcases keyword_of_alternatives halt with rfl | rfl <;> decide
    exact entry_mem_all hk ih (Elements.get_of_alternatives halt) hentry
  | property _ _ hdeclares ih =>
    obtain ⟨rules, name, node, hrules, hmem, rfl⟩ := hdeclares
    exact declared_mem_all ih (get_of_properties hrules hmem) hmem
  | element _ _ hrule ih => exact stated_mem_all ih hrule

/-- Pointers passed on a way are distinct pointers of places, and the depth left is more than there are
others. -/
structure Fits (document : Json) (passed : List String) (depth : Nat) : Prop where
  nodup : passed.Nodup
  mem : ∀ k ∈ passed, k ∈ (all document).map pointer
  enough : (all document).length < depth + passed.length

theorem fits_start (document : Json) : Fits document [] (Compilation.placeBound document) :=
  ⟨List.nodup_nil, fun _ hk => absurd hk List.not_mem_nil, length_all_lt document⟩

/-- There is always depth left. -/
theorem not_fits_zero {passed : List String} : ¬ Fits document passed 0 := by
  intro h
  have hle := h.nodup.length_le_of_subset h.mem
  have hlt := h.enough
  rw [List.length_map] at hle
  omega

theorem Fits.cons {passed : List String} {depth : Nat} (h : Fits document passed (depth + 1))
    (hp : Reached document place) (hnew : place.pointer ∉ passed) :
    Fits document (place.pointer :: passed) depth := by
  refine ⟨List.nodup_cons.mpr ⟨hnew, h.nodup⟩, ?_, ?_⟩
  · intro k hk
    rcases List.mem_cons.mp hk with rfl | hk
    · exact List.mem_map_of_mem hp.mem_all
    · exact h.mem k hk
  · have hlt := h.enough
    rw [List.length_cons]
    omega

end Place
end SchemaBound
