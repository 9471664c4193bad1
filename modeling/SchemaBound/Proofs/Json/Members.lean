import Mathlib.Data.List.Nodup
import SchemaBound.Proofs.Json.Names

/-! The members of an object after one of them is set or taken out: what stands under each name, and which names are
left. -/
namespace SchemaBound.Json

variable {members : List (String × Json)} {name key : String}

theorem lookup_eq_none_iff_not_mem : members.lookup name = none ↔ name ∉ members.map (·.1) := by
  rw [List.lookup_eq_none_iff]
  constructor
  · intro h hmem
    obtain ⟨member, hmember, rfl⟩ := List.mem_map.mp hmem
    simpa using h member hmember
  · intro h member hmember
    have hne : name ≠ member.1 := fun hsame => h (hsame ▸ List.mem_map_of_mem hmember)
    simpa using hne

/-- Changing values, each by its name, changes what stands under a name. -/
theorem lookup_map_named (f : String → Json → Json) (members : List (String × Json)) (name : String) :
    (members.map fun member => (member.1, f member.1 member.2)).lookup name = (members.lookup name).map (f name) := by
  induction members with
  | nil => rfl
  | cons member rest ih =>
    rw [List.map_cons, List.lookup_cons, List.lookup_cons]
    by_cases hname : name = member.1
    · subst hname
      simp
    · rw [beq_eq_false_iff_ne.mpr hname]
      exact ih

theorem perm_takeOut (name : String) (members : List (String × Json)) :
    (takeOut name members).Perm (members.eraseP (·.1 = name)) := by
  rw [List.eraseP_eq_eraseIdx]
  unfold takeOut
  cases members.findIdx? (·.1 = name) with
  | none => exact .refl _
  | some i =>
    dsimp only
    rw [List.eraseIdx_eq_take_drop_succ]
    split
    · rename_i hrest
      rw [hrest, List.append_nil]
    · rename_i next rest hrest
      have hlast : (next :: rest).dropLast ++ [(next :: rest).getLast (by simp)] = next :: rest :=
        List.dropLast_concat_getLast _
      rw [hrest]
      refine List.Perm.append_left _ ((List.perm_append_singleton _ _).symm.trans ?_)
      rw [hlast]

theorem names_eraseP (name : String) (members : List (String × Json)) :
    (members.eraseP (·.1 = name)).map (·.1) = (members.map (·.1)).erase name := by
  have hsame : ((fun key => name == key) ∘ fun member : String × Json => member.1) =
      fun member => decide (member.1 = name) := by
    funext member
    rw [Function.comp_apply, Bool.beq_eq_decide_eq]
    exact decide_eq_decide.mpr eq_comm
  rw [List.erase_eq_eraseP, List.eraseP_map, hsame]

theorem perm_names_takeOut (name : String) (members : List (String × Json)) :
    ((takeOut name members).map (·.1)).Perm ((members.map (·.1)).erase name) :=
  names_eraseP name members ▸ (perm_takeOut name members).map _

theorem lookup_eraseP_ne (hkey : key ≠ name) (members : List (String × Json)) :
    (members.eraseP (·.1 = name)).lookup key = members.lookup key := by
  induction members with
  | nil => rfl
  | cons member rest ih =>
    rw [List.lookup_cons]
    by_cases hname : member.1 = name
    · rw [List.eraseP_cons_of_pos (by simpa using hname), hname, beq_eq_false_iff_ne.mpr hkey]
    · rw [List.eraseP_cons_of_neg (by simpa using hname), List.lookup_cons, ih]

/-- The members that are not taken out stay under their names. -/
theorem lookup_takeOut_ne (hnames : (members.map (·.1)).Nodup) (hkey : key ≠ name) :
    (takeOut name members).lookup key = members.lookup key := by
  have hleft : ((takeOut name members).map (·.1)).Nodup :=
    (perm_names_takeOut name members).nodup_iff.mpr (hnames.erase name)
  rw [lookup_of_perm (perm_takeOut name members) hleft, lookup_eraseP_ne hkey]

theorem lookup_takeOut_self (hnames : (members.map (·.1)).Nodup) : (takeOut name members).lookup name = none := by
  rw [lookup_eq_none_iff_not_mem, (perm_names_takeOut name members).mem_iff]
  exact hnames.not_mem_erase

theorem lookup_setMember_self (name : String) (v : Json) (members : List (String × Json)) :
    (setMember name v members).lookup name = some v := by
  induction members with
  | nil => simp [setMember]
  | cons member rest ih =>
    obtain ⟨k, w⟩ := member
    rw [setMember]
    split
    · rename_i hk
      rw [hk, List.lookup_cons, beq_self_eq_true]
    · rename_i hk
      rw [List.lookup_cons, beq_eq_false_iff_ne.mpr (Ne.symm hk)]
      exact ih

theorem lookup_setMember_ne (hkey : key ≠ name) (v : Json) (members : List (String × Json)) :
    (setMember name v members).lookup key = members.lookup key := by
  induction members with
  | nil => simp [setMember, hkey]
  | cons member rest ih =>
    obtain ⟨k, w⟩ := member
    rw [setMember]
    split
    · rename_i hk
      rw [List.lookup_cons, List.lookup_cons, hk, beq_eq_false_iff_ne.mpr hkey]
    · rw [List.lookup_cons, List.lookup_cons, ih]

theorem names_setMember_of_mem (v : Json) (h : name ∈ members.map (·.1)) :
    (setMember name v members).map (·.1) = members.map (·.1) := by
  induction members with
  | nil => cases h
  | cons member rest ih =>
    obtain ⟨k, w⟩ := member
    rw [setMember]
    split
    · rfl
    · rename_i hk
      rw [List.map_cons, List.map_cons, ih ((List.mem_cons.mp h).resolve_left (Ne.symm hk))]

end SchemaBound.Json
