import SchemaBound.Blueprint.Elements
import SchemaBound.Proofs.Json.Names
import SchemaBound.Proofs.Success

/-! Places of a document without repeated names: wherever a compilation goes from one of them, it comes to
nodes without repeated names. -/
namespace SchemaBound

variable {document : Json} {place target : Place}

/-- No object in the node of the place has a name twice. -/
def Place.hasDistinctNames (place : Place) : Prop := place.node.hasDistinctNames

namespace Place

theorem hasDistinctNames_target (hd : document.hasDistinctNames) {reference : String}
    (h : target? document reference = some target) : target.hasDistinctNames := by
  unfold target? at h
  split at h
  · obtain ⟨node, hnode, h⟩ := Option.bind_eq_some_iff.mp h
    obtain rfl := Option.some.inj h
    exact Json.hasDistinctNames_pointer hd hnode
  · cases h

/-- The schemas of a list that a node holds. -/
theorem hasDistinctNames_entries (hp : place.hasDistinctNames) {keyword : String} {items : List Json}
    (hitems : place.node.get? keyword = some (.arr items)) {entry : Place} {label : String}
    (h : entry ∈ place.entries label items) : entry.hasDistinctNames := by
  obtain ⟨⟨item, i⟩, hitem, rfl⟩ := List.mem_map.mp h
  exact Json.hasDistinctNames_arr (Json.hasDistinctNames_get hp hitems) (List.fst_mem_of_mem_zipIdx hitem)

end Place

namespace Elements

theorem get_of_items {v? : Option Json} {items : List Json} (h : v?.bind Json.items? = some items) :
    v? = some (.arr items) := by
  obtain ⟨v, rfl, hv⟩ := Option.bind_eq_some_iff.mp h
  cases v with
  | arr items' => rw [Option.some.inj hv]
  | _ => cases hv

theorem get_of_alternatives {node : Json} {keyword : String} {items : List Json}
    (h : alternatives? node = some (keyword, items)) : node.get? keyword = some (.arr items) := by
  unfold alternatives? at h
  split at h
  · cases h
  · split at h
    · rename_i items' hany
      obtain ⟨rfl, rfl⟩ := Prod.mk.inj (Option.some.inj h)
      exact get_of_items hany
    · obtain ⟨items', hone, h⟩ := Option.map_eq_some_iff.mp h
      obtain ⟨rfl, rfl⟩ := Prod.mk.inj h
      exact get_of_items hone

theorem hasDistinctNames_stated (hp : place.hasDistinctNames) :
    ∀ found ∈ stated place, found.hasDistinctNames := by
  intro found hf
  rcases List.mem_append.mp hf with hf | hf
  · split at hf
    · rename_i items hitems
      exact Place.hasDistinctNames_entries hp hitems hf
    · cases hf
  · split at hf
    · rename_i items hitems
      exact Place.hasDistinctNames_entries hp hitems hf
    · rename_i item _ hitem
      obtain rfl := List.mem_singleton.mp hf
      exact Json.hasDistinctNames_get hp hitem
    · cases hf

theorem mem_insertPlace {places : List Place} {found : Place} (h : found ∈ insertPlace places place) :
    found ∈ places ∨ found = place := by
  unfold insertPlace at h
  split at h
  · exact Or.inl h
  · rcases List.mem_append.mp h with h | h
    · exact Or.inl h
    · exact Or.inr (List.mem_singleton.mp h)

/-- The objects that a survey finds are among the places surveyed. -/
theorem mem_of_survey {places objects : List Place} {others : Bool}
    (h : survey document places = .ok (objects, others)) : ∀ found ∈ objects, found ∈ places := by
  unfold survey at h
  refine Success.foldlM_keeps (fun known : List Place × Bool => ∀ found ∈ known.1, found ∈ places)
    (fun place hplace known next hknown hnext => ?_) (fun _ hfound => absurd hfound List.not_mem_nil) h
  obtain ⟨shape, _, hnext⟩ := Success.bind_eq_ok.mp hnext
  split at hnext
  · obtain rfl := Success.pure_eq_ok.mp hnext
    intro found hfound
    rcases mem_insertPlace hfound with hold | rfl
    · exact hknown found hold
    · exact hplace
  · obtain rfl := Success.pure_eq_ok.mp hnext
    exact hknown

end Elements
end SchemaBound
