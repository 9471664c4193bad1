import SchemaBound.Proofs.Json.Names

/-! Values as containers with texts at their leaves: replacing every text by what its path makes of it. -/
namespace SchemaBound.Json

/-- A step from a container to one of its parts. -/
inductive Step where
  | member (name : String)
  | item (index : Nat)
deriving DecidableEq

/-- What becomes of the text at a path, outermost step first. -/
abbrev Reading := List Step → String → Json

namespace Reading

/-- Every text stays. -/
def verbatim : Reading := fun _ s => .str s

/-- The reading of a part, seen from the part. -/
def below (reading : Reading) (step : Step) : Reading := fun path => reading (step :: path)

end Reading

mutual
/-- Replaces every text by its reading. -/
def mapText (reading : Reading) : Json → Json
  | .str s => reading [] s
  | .arr items => .arr (mapTextItems reading 0 items)
  | .obj members => .obj (mapTextMembers reading members)
  | v => v

/-- The items from `index` on. -/
def mapTextItems (reading : Reading) (index : Nat) : List Json → List Json
  | [] => []
  | v :: rest => v.mapText (reading.below (.item index)) :: mapTextItems reading (index + 1) rest

/-- The members, each under its name. -/
def mapTextMembers (reading : Reading) : List (String × Json) → List (String × Json)
  | [] => []
  | (name, v) :: rest => (name, v.mapText (reading.below (.member name))) :: mapTextMembers reading rest
end

/-- One reading after another: what the first one makes of a text is read by the second. -/
def Reading.andThen (first second : Reading) : Reading := fun path s =>
  (first path s).mapText fun rest => second (path ++ rest)

/-- No reading changes the value. -/
def IsSettled (v : Json) : Prop := ∀ reading, v.mapText reading = v

/-- Every text either stays or becomes settled. -/
def Reading.Settling (reading : Reading) : Prop :=
  ∀ path s, reading path s = .str s ∨ (reading path s).IsSettled

theorem isSettled_bool (b : Bool) : (Json.bool b).IsSettled := fun _ => by simp [mapText]

theorem isSettled_num (n : Number) : (Json.num n).IsSettled := fun _ => by simp [mapText]

/-- Readings that agree inside containers map items alike. -/
theorem mapTextItems_congr (first second : Reading)
    (h : ∀ i, first.below (.item i) = second.below (.item i)) (index : Nat) (items : List Json) :
    mapTextItems first index items = mapTextItems second index items := by
  induction items generalizing index with
  | nil => rfl
  | cons v rest ih => simp only [mapTextItems, h, ih]

/-- Readings that agree inside containers map members alike. -/
theorem mapTextMembers_congr (first second : Reading)
    (h : ∀ name, first.below (.member name) = second.below (.member name))
    (members : List (String × Json)) :
    mapTextMembers first members = mapTextMembers second members := by
  induction members with
  | nil => rfl
  | cons member rest ih =>
    obtain ⟨name, v⟩ := member
    simp only [mapTextMembers, h, ih]

mutual
/-- Leaving every text leaves the value. -/
theorem mapText_verbatim : ∀ v : Json, v.mapText .verbatim = v
  | .null => by simp [mapText]
  | .bool _ => by simp [mapText]
  | .num _ => by simp [mapText]
  | .str _ => by simp [mapText, Reading.verbatim]
  | .arr items => by rw [mapText, mapTextItems_verbatim 0 items]
  | .obj members => by rw [mapText, mapTextMembers_verbatim members]

theorem mapTextItems_verbatim : ∀ (index : Nat) (items : List Json),
    mapTextItems .verbatim index items = items
  | _, [] => rfl
  | index, v :: rest => by
    rw [mapTextItems, mapTextItems_verbatim (index + 1) rest]
    exact congrArg (· :: rest) (mapText_verbatim v)

theorem mapTextMembers_verbatim : ∀ members : List (String × Json),
    mapTextMembers .verbatim members = members
  | [] => rfl
  | (name, v) :: rest => by
    rw [mapTextMembers, mapTextMembers_verbatim rest]
    exact congrArg (fun w => (name, w) :: rest) (mapText_verbatim v)
end

mutual
/-- Two readings in a row are one. -/
theorem mapText_mapText : ∀ (first second : Reading) (v : Json),
    (v.mapText first).mapText second = v.mapText (first.andThen second)
  | _, _, .null => by simp [mapText]
  | _, _, .bool _ => by simp [mapText]
  | _, _, .num _ => by simp [mapText]
  | first, second, .str s => by simp [mapText, Reading.andThen]
  | first, second, .arr items => by
    simp only [mapText]
    rw [mapTextItems_mapTextItems first second 0 items]
  | first, second, .obj members => by
    simp only [mapText]
    rw [mapTextMembers_mapTextMembers first second members]

theorem mapTextItems_mapTextItems : ∀ (first second : Reading) (index : Nat) (items : List Json),
    mapTextItems second index (mapTextItems first index items) =
      mapTextItems (first.andThen second) index items
  | _, _, _, [] => rfl
  | first, second, index, v :: rest => by
    simp only [mapTextItems]
    rw [mapTextItems_mapTextItems first second (index + 1) rest,
      mapText_mapText (first.below (.item index)) (second.below (.item index)) v]
    rfl

theorem mapTextMembers_mapTextMembers : ∀ (first second : Reading) (members : List (String × Json)),
    mapTextMembers second (mapTextMembers first members) = mapTextMembers (first.andThen second) members
  | _, _, [] => rfl
  | first, second, (name, v) :: rest => by
    simp only [mapTextMembers]
    rw [mapTextMembers_mapTextMembers first second rest,
      mapText_mapText (first.below (.member name)) (second.below (.member name)) v]
    rfl
end

theorem Reading.Settling.below {reading : Reading} (h : reading.Settling) (step : Step) :
    (reading.below step).Settling :=
  fun path s => h (step :: path) s

/-- Reading by a settling reading once more changes nothing. -/
theorem mapText_idem {reading : Reading} (h : reading.Settling) (v : Json) :
    (v.mapText reading).mapText reading = v.mapText reading := by
  rw [mapText_mapText]
  congr 1
  funext path s
  unfold Reading.andThen
  rcases h path s with hs | hs
  · rw [hs]
    simp [mapText, hs]
  · exact hs _

theorem mapTextMembers_eq_map (reading : Reading) (members : List (String × Json)) :
    mapTextMembers reading members =
      members.map fun member => (member.1, member.2.mapText (reading.below (.member member.1))) := by
  induction members with
  | nil => rfl
  | cons member rest ih =>
    obtain ⟨name, v⟩ := member
    rw [mapTextMembers, ih, List.map_cons]

theorem lookup_mapTextMembers (reading : Reading) (name : String) (members : List (String × Json)) :
    (mapTextMembers reading members).lookup name =
      (members.lookup name).map (mapText (reading.below (.member name))) := by
  induction members with
  | nil => rfl
  | cons member rest ih =>
    obtain ⟨key, v⟩ := member
    rw [mapTextMembers, List.lookup_cons, List.lookup_cons]
    by_cases hk : name = key
    · subst hk
      simp
    · simp only [beq_eq_false_iff_ne.mpr hk, ih]

theorem getElem?_mapTextItems (reading : Reading) (index : Nat) (items : List Json) (i : Nat) :
    (mapTextItems reading index items)[i]? =
      items[i]?.map (mapText (reading.below (.item (index + i)))) := by
  induction items generalizing index i with
  | nil => simp [mapTextItems]
  | cons v rest ih =>
    cases i with
    | zero => simp [mapTextItems]
    | succ i =>
      have hindex : index + 1 + i = index + (i + 1) := by omega
      simp [mapTextItems, ih, hindex]

mutual
/-- Replacing texts keeps names distinct. -/
theorem hasDistinctNames_mapText {reading : Reading} (h : ∀ path s, (reading path s).hasDistinctNames) {v : Json}
    (hv : v.hasDistinctNames) : (v.mapText reading).hasDistinctNames := by
  cases v with
  | str s =>
    rw [mapText]
    exact h [] s
  | arr items =>
    rw [mapText, hasDistinctNames_arr_iff]
    exact hasDistinctNames_mapTextItems h 0 (hasDistinctNames_arr_iff.mp hv)
  | obj members =>
    obtain ⟨hnodup, hall⟩ := hasDistinctNames_obj_iff.mp hv
    rw [mapText, hasDistinctNames_obj_iff]
    refine ⟨?_, hasDistinctNames_mapTextMembers h hall⟩
    rw [mapTextMembers_eq_map, List.map_map]
    exact hnodup
  | _ =>
    rw [mapText]
    · exact hv
    all_goals nofun

theorem hasDistinctNames_mapTextItems {reading : Reading} (h : ∀ path s, (reading path s).hasDistinctNames)
    (index : Nat) {items : List Json} (hitems : ∀ v ∈ items, v.hasDistinctNames) :
    ∀ v ∈ mapTextItems reading index items, v.hasDistinctNames := by
  cases items with
  | nil => nofun
  | cons v rest =>
    obtain ⟨hv, hrest⟩ := List.forall_mem_cons.mp hitems
    rw [mapTextItems]
    exact List.forall_mem_cons.mpr ⟨hasDistinctNames_mapText (fun path => h (.item index :: path)) hv,
      hasDistinctNames_mapTextItems h (index + 1) hrest⟩

theorem hasDistinctNames_mapTextMembers {reading : Reading} (h : ∀ path s, (reading path s).hasDistinctNames)
    {members : List (String × Json)} (hmembers : ∀ member ∈ members, member.2.hasDistinctNames) :
    ∀ member ∈ mapTextMembers reading members, member.2.hasDistinctNames := by
  cases members with
  | nil => nofun
  | cons member rest =>
    obtain ⟨name, v⟩ := member
    obtain ⟨hv, hrest⟩ := List.forall_mem_cons.mp hmembers
    rw [mapTextMembers]
    exact List.forall_mem_cons.mpr ⟨hasDistinctNames_mapText (fun path => h (.member name :: path)) hv,
      hasDistinctNames_mapTextMembers h hrest⟩
end

end SchemaBound.Json
