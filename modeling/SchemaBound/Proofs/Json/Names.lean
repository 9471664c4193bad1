import SchemaBound.Json.Pointer

/-! Values in which no object has a name twice, as readers make them. -/
namespace SchemaBound.Json

mutual
/-- No object in the value has two members of one name. -/
def hasDistinctNames : Json → Bool
  | .arr items => itemsHaveDistinctNames items
  | .obj members => decide (members.map (·.1)).Nodup && membersHaveDistinctNames members
  | _ => true

/-- No object in any of the items has two members of one name. -/
def itemsHaveDistinctNames : List Json → Bool
  | [] => true
  | v :: rest => v.hasDistinctNames && itemsHaveDistinctNames rest

/-- No object in any of the members has two members of one name. -/
def membersHaveDistinctNames : List (String × Json) → Bool
  | [] => true
  | (_, v) :: rest => v.hasDistinctNames && membersHaveDistinctNames rest
end

theorem itemsHaveDistinctNames_iff {items : List Json} :
    itemsHaveDistinctNames items ↔ ∀ v ∈ items, v.hasDistinctNames := by
  induction items with
  | nil => simp [itemsHaveDistinctNames]
  | cons v rest ih => simp only [itemsHaveDistinctNames, Bool.and_eq_true, ih, List.forall_mem_cons]

theorem membersHaveDistinctNames_iff {members : List (String × Json)} :
    membersHaveDistinctNames members ↔ ∀ member ∈ members, member.2.hasDistinctNames := by
  induction members with
  | nil => simp [membersHaveDistinctNames]
  | cons member rest ih =>
    obtain ⟨name, v⟩ := member
    simp only [membersHaveDistinctNames, Bool.and_eq_true, ih, List.forall_mem_cons]

theorem hasDistinctNames_arr_iff {items : List Json} :
    (Json.arr items).hasDistinctNames ↔ ∀ v ∈ items, v.hasDistinctNames := by
  rw [hasDistinctNames, itemsHaveDistinctNames_iff]

theorem hasDistinctNames_obj_iff {members : List (String × Json)} :
    (Json.obj members).hasDistinctNames ↔
      (members.map (·.1)).Nodup ∧ ∀ member ∈ members, member.2.hasDistinctNames := by
  simp only [hasDistinctNames, Bool.and_eq_true, decide_eq_true_eq, membersHaveDistinctNames_iff]

theorem hasDistinctNames_arr {items : List Json} (h : (Json.arr items).hasDistinctNames) {v : Json}
    (hv : v ∈ items) : v.hasDistinctNames :=
  hasDistinctNames_arr_iff.mp h v hv

theorem nodup_names {members : List (String × Json)} (h : (Json.obj members).hasDistinctNames) :
    (members.map (·.1)).Nodup :=
  (hasDistinctNames_obj_iff.mp h).1

theorem hasDistinctNames_obj {members : List (String × Json)} (h : (Json.obj members).hasDistinctNames)
    {member : String × Json} (hm : member ∈ members) : member.2.hasDistinctNames :=
  (hasDistinctNames_obj_iff.mp h).2 member hm

theorem mem_of_lookup {members : List (String × Json)} {name : String} {v : Json}
    (h : members.lookup name = some v) : (name, v) ∈ members := by
  obtain ⟨before, after, rfl, _⟩ := List.lookup_eq_some_iff.mp h
  exact List.mem_append_right before List.mem_cons_self

theorem lookup_of_mem {members : List (String × Json)} (hn : (members.map (·.1)).Nodup) {name : String}
    {v : Json} (h : (name, v) ∈ members) : members.lookup name = some v := by
  obtain ⟨before, after, rfl⟩ := List.append_of_mem h
  refine List.lookup_eq_some_iff.mpr ⟨before, after, rfl, fun member hm => ?_⟩
  have hne : name ≠ member.1 := by
    rintro rfl
    rw [List.map_append, List.nodup_append] at hn
    exact hn.2.2 member.1 (List.mem_map_of_mem hm) member.1 (by simp) rfl
  simpa using hne

/-- Changing the values of members changes what stands under a name. -/
theorem lookup_map_values (f : Json → Json) (members : List (String × Json)) (name : String) :
    (members.map fun member => (member.1, f member.2)).lookup name = (members.lookup name).map f := by
  induction members with
  | nil => rfl
  | cons member rest ih =>
    obtain ⟨key, v⟩ := member
    rw [List.map_cons, List.lookup_cons, List.lookup_cons]
    cases name == key with
    | true => rfl
    | false => exact ih

/-- The order of members does not matter to what stands under a name. -/
theorem lookup_of_perm {members others : List (String × Json)} (h : members.Perm others)
    (hn : (members.map (·.1)).Nodup) (name : String) : members.lookup name = others.lookup name := by
  refine Option.ext fun v => ?_
  constructor
  · intro hv
    exact lookup_of_mem ((h.map (·.1)).nodup_iff.mp hn) (h.mem_iff.mp (mem_of_lookup hv))
  · intro hv
    exact lookup_of_mem hn (h.mem_iff.mpr (mem_of_lookup hv))

theorem hasDistinctNames_get {v w : Json} {name : String} (h : v.hasDistinctNames)
    (hw : v.get? name = some w) : w.hasDistinctNames := by
  cases v with
  | obj members => exact hasDistinctNames_obj h (mem_of_lookup hw)
  | _ => cases hw

theorem hasDistinctNames_childAt {v w : Json} {token : String} (h : v.hasDistinctNames)
    (hw : v.childAt? token = some w) : w.hasDistinctNames := by
  unfold childAt? at hw
  cases v with
  | obj members => exact hasDistinctNames_obj h (mem_of_lookup hw)
  | arr items =>
    obtain ⟨i, _, hi⟩ := Option.bind_eq_some_iff.mp hw
    exact hasDistinctNames_arr h (List.mem_of_getElem? hi)
  | _ => cases hw

theorem hasDistinctNames_follow {tokens : List String} {v w : Json} (h : v.hasDistinctNames)
    (hw : v.follow? tokens = some w) : w.hasDistinctNames := by
  induction tokens generalizing v with
  | nil =>
    obtain rfl := Option.some.inj hw
    exact h
  | cons token rest ih =>
    obtain ⟨child, hchild, hw⟩ := Option.bind_eq_some_iff.mp hw
    exact ih (hasDistinctNames_childAt h hchild) hw

/-- What a pointer addresses has distinct names if the whole has. -/
theorem hasDistinctNames_pointer {v w : Json} {pointer : String} (h : v.hasDistinctNames)
    (hw : v.pointer? pointer = some w) : w.hasDistinctNames := by
  unfold pointer? at hw
  by_cases hp : pointer = ""
  · rw [if_pos hp] at hw
    obtain rfl := Option.some.inj hw
    exact h
  · rw [if_neg hp] at hw
    obtain ⟨tokens, _, hw⟩ := Option.bind_eq_some_iff.mp hw
    exact hasDistinctNames_follow h hw

section SetMember

variable {name : String} {v : Json} {members : List (String × Json)}

theorem mem_setMember {member : String × Json} (h : member ∈ setMember name v members) :
    member ∈ members ∨ member = (name, v) := by
  induction members with
  | nil => exact Or.inr (List.mem_singleton.mp h)
  | cons first rest ih =>
    obtain ⟨key, w⟩ := first
    rw [setMember] at h
    by_cases hkey : key = name
    · rw [if_pos hkey, List.mem_cons, hkey] at h
      rcases h with rfl | h
      · exact Or.inr rfl
      · exact Or.inl (List.mem_cons_of_mem _ h)
    · rw [if_neg hkey, List.mem_cons] at h
      rcases h with rfl | h
      · exact Or.inl List.mem_cons_self
      · exact (ih h).imp_left (List.mem_cons_of_mem _)

theorem nodup_setMember (h : (members.map (·.1)).Nodup) :
    ((setMember name v members).map (·.1)).Nodup := by
  induction members with
  | nil => simp [setMember]
  | cons first rest ih =>
    obtain ⟨key, w⟩ := first
    rw [List.map_cons, List.nodup_cons] at h
    rw [setMember]
    by_cases hkey : key = name
    · rw [if_pos hkey, List.map_cons, List.nodup_cons]
      exact h
    · rw [if_neg hkey, List.map_cons, List.nodup_cons]
      refine ⟨fun hmem => ?_, ih h.2⟩
      obtain ⟨member, hmember, hname⟩ := List.mem_map.mp hmem
      rcases mem_setMember hmember with hold | rfl
      · exact h.1 (List.mem_map.mpr ⟨member, hold, hname⟩)
      · exact hkey hname.symm

/-- Setting a member keeps names distinct. -/
theorem hasDistinctNames_setMember (hm : (Json.obj members).hasDistinctNames) (hv : v.hasDistinctNames) :
    (Json.obj (setMember name v members)).hasDistinctNames := by
  obtain ⟨hnodup, hall⟩ := hasDistinctNames_obj_iff.mp hm
  refine hasDistinctNames_obj_iff.mpr ⟨nodup_setMember hnodup, fun member hmember => ?_⟩
  rcases mem_setMember hmember with hold | rfl
  · exact hall member hold
  · exact hv

end SetMember

end SchemaBound.Json
