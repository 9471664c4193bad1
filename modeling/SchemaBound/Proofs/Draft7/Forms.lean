import SchemaBound.Proofs.Draft7.Keywords
import SchemaBound.Proofs.Schema.Form

/-! What the members of a schema ask when definitions are put behind them, and in the form that values are checked by:
schemas in that form are asked the same, and requirements are lost at most. -/
namespace SchemaBound

variable {draft : Draft} {occurs : String → String → Prop} {admits : Json → Json → Prop}
  {members members' : List (String × Json)} {v node x : Json} {way polarity : Polarity}

/-- A keyword that holds definitions and demands nothing itself. -/
def isDefinitions (key : String) : Prop := key = "definitions" ∨ key = "$defs"

instance : DecidablePred isDefinitions := fun key => inferInstanceAs (Decidable (key = "definitions" ∨ key = "$defs"))

/-- The same members but for definitions. -/
def SameButDefinitions (members members' : List (String × Json)) : Prop :=
  ∀ key, ¬ isDefinitions key → members.lookup key = members'.lookup key

theorem SameButDefinitions.symm (h : SameButDefinitions members members') : SameButDefinitions members' members :=
  fun key hkey => (h key hkey).symm

section Definitions

theorem IsFurther.of_same {name : String} (h : SameButDefinitions members members')
    (hfurther : IsFurther occurs members name) :
    IsFurther occurs members' name :=
  ⟨fun rules hrules => hfurther.undeclared rules ((h _ (by decide)).trans hrules),
    fun patterns source node hpatterns => hfurther.unmatched patterns source node ((h _ (by decide)).trans hpatterns)⟩

theorem Demands.of_same (h : SameButDefinitions members members') (hdemands : Demands draft occurs members v node x) :
    Demands draft occurs members' v node x := by
  have hlookup {key : String} (hkey : ¬ isDefinitions key) {w : Json} (hw : members.lookup key = some w) :
      members'.lookup key = some w := (h key hkey).symm.trans hw
  cases hdemands with
  | property hrules hnode hx => exact .property (hlookup (by decide) hrules) hnode hx
  | matched hpatterns hnode hx hoccurs => exact .matched (hlookup (by decide) hpatterns) hnode hx hoccurs
  | further hnode hx hfurther => exact .further (hlookup (by decide) hnode) hx (hfurther.of_same h)
  | item hnode hschema hx => exact .item (hlookup (by decide) hnode) hschema hx
  | entry hnodes hnode hx => exact .entry (hlookup (by decide) hnodes) hnode hx
  | furtherItem hnodes hnode hschema hi hx =>
    exact .furtherItem (hlookup (by decide) hnodes) (hlookup (by decide) hnode) hschema hi hx
  | name hknows hnode hschema hx => exact .name hknows (hlookup (by decide) hnode) hschema hx
  | allOf hnodes hnode => exact .allOf (hlookup (by decide) hnodes) hnode
  | dependency hlist hnode harray hsome => exact .dependency (hlookup (by decide) hlist) hnode harray hsome

theorem Poses.of_same (h : SameButDefinitions members members') (hposes : Poses draft occurs members way v node x) :
    Poses draft occurs members' way v node x := by
  have hlookup {key : String} (hkey : ¬ isDefinitions key) {w : Json} (hw : members.lookup key = some w) :
      members'.lookup key = some w := (h key hkey).symm.trans hw
  cases hposes with
  | demand hdemands => exact .demand (hdemands.of_same h)
  | anyOf hnodes hnode => exact .anyOf (hlookup (by decide) hnodes) hnode
  | oneOf hnodes hnode => exact .oneOf (hlookup (by decide) hnodes) hnode
  | not hnode => exact .not (hlookup (by decide) hnode)
  | contains hknows hnode hx => exact .contains hknows (hlookup (by decide) hnode) hx
  | condition hknows hnode hsome =>
    rw [h "then" (by decide), h "else" (by decide)] at hsome
    exact .condition hknows (hlookup (by decide) hnode) hsome
  | holds hknows hsome hnode =>
    rw [h "if" (by decide)] at hsome
    exact .holds hknows hsome (hlookup (by decide) hnode)
  | fails hknows hsome hnode =>
    rw [h "if" (by decide)] at hsome
    exact .fails hknows hsome (hlookup (by decide) hnode)

theorem MeetsRules.iff_of_same (h : SameButDefinitions members members') :
    MeetsRules draft occurs admits members v ↔ MeetsRules draft occurs admits members' v := by
  have hdemands : (∀ node x, Demands draft occurs members v node x → admits node x) ↔
      ∀ node x, Demands draft occurs members' v node x → admits node x :=
    ⟨fun hall node x hd => hall node x (hd.of_same h.symm), fun hall node x hd => hall node x (hd.of_same h)⟩
  rw [meetsRules_iff, meetsRules_iff, hdemands, chooses_iff, chooses_iff, requires_iff, requires_iff]
  simp only [h "anyOf" (by decide), h "oneOf" (by decide), h "not" (by decide), h "contains" (by decide),
    h "if" (by decide), h "then" (by decide), h "else" (by decide), h "required" (by decide),
    h "dependencies" (by decide)]

end Definitions

namespace Options
open Requirement

variable {options : Options}

theorem isSchema_form : (options.form node).isSchema = node.isSchema := by
  cases node with
  | obj members => rw [form_obj]; rfl
  | _ => rw [form_of_not_obj rfl]

theorem isFurther_formMembers {name : String} :
    IsFurther occurs (options.formMembers members) name ↔ IsFurther occurs members name := by
  constructor
  · refine fun h => ⟨fun rules hrules => ?_, fun patterns source node hpatterns hnode => ?_⟩
    · have hnone := h.undeclared _ ((lookup_formMembers_named (by decide)).mpr ⟨rules, hrules, rfl⟩)
      rwa [lookup_map_form, Option.map_eq_none_iff] at hnone
    · exact h.unmatched _ source _ ((lookup_formMembers_named (by decide)).mpr ⟨patterns, hpatterns, rfl⟩)
        (List.mem_map.mpr ⟨_, hnode, rfl⟩)
  · refine fun h => ⟨fun formed hformed => ?_, fun formed source node hformed hnode => ?_⟩
    · obtain ⟨rules, hrules, rfl⟩ := (lookup_formMembers_named (by decide)).mp hformed
      rw [lookup_map_form, h.undeclared rules hrules, Option.map_none]
    · obtain ⟨patterns, hpatterns, rfl⟩ := (lookup_formMembers_named (by decide)).mp hformed
      obtain ⟨⟨_, original⟩, hmem, hsame⟩ := List.mem_map.mp hnode
      obtain ⟨rfl, rfl⟩ := Prod.mk.inj hsame
      exact h.unmatched patterns _ original hpatterns hmem

/-- What is demanded by schemas is demanded by their forms. -/
theorem demands_formMembers_of_demands (h : Demands draft occurs members v node x) :
    Demands draft occurs (options.formMembers members) v (options.form node) x := by
  cases h with
  | property hrules hnode hx =>
    refine .property ((lookup_formMembers_named (by decide)).mpr ⟨_, hrules, rfl⟩) ?_ hx
    rw [lookup_map_form, hnode, Option.map_some]
  | matched hpatterns hnode hx hoccurs =>
    exact .matched ((lookup_formMembers_named (by decide)).mpr ⟨_, hpatterns, rfl⟩)
      (List.mem_map.mpr ⟨_, hnode, rfl⟩) hx hoccurs
  | further hnode hx hfurther =>
    refine .further ?_ hx (isFurther_formMembers.mpr hfurther)
    rw [lookup_formMembers_one (by decide), hnode, Option.map_some]
  | item hnode hschema hx =>
    have hformed : (options.form node).isSchema := isSchema_form.trans hschema
    have hlookup := (lookup_formMembers_single (by decide) (Json.isArray_of_isSchema hformed)).mpr ⟨node, hnode, rfl⟩
    exact .item hlookup hformed hx
  | entry hnodes hnode hx =>
    refine .entry ((lookup_formMembers_list (by decide)).mpr ⟨_, hnodes, rfl⟩) ?_ hx
    rw [List.getElem?_map, hnode, Option.map_some]
  | furtherItem hnodes hnode hschema hi hx =>
    refine .furtherItem ((lookup_formMembers_list (by decide)).mpr ⟨_, hnodes, rfl⟩) ?_
      (isSchema_form.trans hschema) ?_ hx
    · rw [lookup_formMembers_one (by decide), hnode, Option.map_some]
    · rwa [List.length_map]
  | name hknows hnode hschema hx =>
    refine .name hknows ?_ (isSchema_form.trans hschema) hx
    rw [lookup_formMembers_one (by decide), hnode, Option.map_some]
  | allOf hnodes hnode =>
    exact .allOf ((lookup_formMembers_list (by decide)).mpr ⟨_, hnodes, rfl⟩) (List.mem_map_of_mem hnode)
  | dependency hlist hnode harray hsome =>
    have hformed : (options.form node).isArray = false := isArray_form.trans harray
    exact .dependency (lookup_formMembers_dependencies.mpr ⟨_, hlist, rfl⟩)
      ((mem_formDependencies hformed).mpr ⟨node, hnode, rfl⟩) hformed hsome

/-- Whatever is demanded in the form is demanded by the form of a schema. -/
theorem exists_of_demands_formMembers (h : Demands draft occurs (options.formMembers members) v node x) :
    ∃ original, Demands draft occurs members v original x ∧ node = options.form original := by
  have hone {key : String} (hkey : Nesting.ofKeyword key = .one) {node : Json}
      (hnode : (options.formMembers members).lookup key = some node) :
      ∃ original, members.lookup key = some original ∧ options.form original = node := by
    rw [lookup_formMembers_one hkey] at hnode
    exact Option.map_eq_some_iff.mp hnode
  cases h with
  | property hformed hnode hx =>
    obtain ⟨rules, hrules, rfl⟩ := (lookup_formMembers_named (by decide)).mp hformed
    rw [lookup_map_form] at hnode
    obtain ⟨original, horiginal, rfl⟩ := Option.map_eq_some_iff.mp hnode
    exact ⟨original, .property hrules horiginal hx, rfl⟩
  | matched hformed hnode hx hoccurs =>
    obtain ⟨patterns, hpatterns, rfl⟩ := (lookup_formMembers_named (by decide)).mp hformed
    obtain ⟨⟨_, original⟩, horiginal, hsame⟩ := List.mem_map.mp hnode
    obtain ⟨rfl, rfl⟩ := Prod.mk.inj hsame
    exact ⟨original, .matched hpatterns horiginal hx hoccurs, rfl⟩
  | further hnode hx hfurther =>
    obtain ⟨original, horiginal, rfl⟩ := hone (by decide) hnode
    exact ⟨original, .further horiginal hx (isFurther_formMembers.mp hfurther), rfl⟩
  | item hnode hschema hx =>
    obtain ⟨original, horiginal, rfl⟩ :=
      (lookup_formMembers_single (by decide) (Json.isArray_of_isSchema hschema)).mp hnode
    exact ⟨original, .item horiginal (isSchema_form.symm.trans hschema) hx, rfl⟩
  | entry hformed hnode hx =>
    obtain ⟨nodes, hnodes, rfl⟩ := (lookup_formMembers_list (by decide)).mp hformed
    rw [List.getElem?_map] at hnode
    obtain ⟨original, horiginal, rfl⟩ := Option.map_eq_some_iff.mp hnode
    exact ⟨original, .entry hnodes horiginal hx, rfl⟩
  | furtherItem hformed hnode hschema hi hx =>
    obtain ⟨nodes, hnodes, rfl⟩ := (lookup_formMembers_list (by decide)).mp hformed
    obtain ⟨original, horiginal, rfl⟩ := hone (by decide) hnode
    rw [List.length_map] at hi
    exact ⟨original, .furtherItem hnodes horiginal (isSchema_form.symm.trans hschema) hi hx, rfl⟩
  | name hknows hnode hschema hx =>
    obtain ⟨original, horiginal, rfl⟩ := hone (by decide) hnode
    exact ⟨original, .name hknows horiginal (isSchema_form.symm.trans hschema) hx, rfl⟩
  | allOf hformed hnode =>
    obtain ⟨nodes, hnodes, rfl⟩ := (lookup_formMembers_list (by decide)).mp hformed
    obtain ⟨original, horiginal, rfl⟩ := List.mem_map.mp hnode
    exact ⟨original, .allOf hnodes horiginal, rfl⟩
  | dependency hformed hnode harray hsome =>
    obtain ⟨list, hlist, rfl⟩ := lookup_formMembers_dependencies.mp hformed
    obtain ⟨original, horiginal, rfl⟩ := (mem_formDependencies harray).mp hnode
    exact ⟨original, .dependency hlist horiginal (isArray_form.symm.trans harray) hsome, rfl⟩

theorem poses_formMembers (h : Poses draft occurs members way v node x) :
    Poses draft occurs (options.formMembers members) way v (options.form node) x := by
  have hone {key : String} (hkey : Nesting.ofKeyword key = .one) {node : Json}
      (hnode : members.lookup key = some node) :
      (options.formMembers members).lookup key = some (options.form node) := by
    rw [lookup_formMembers_one hkey, hnode, Option.map_some]
  have hsame (key : String) (hkey : Nesting.ofKeyword key = .one) :
      ((options.formMembers members).lookup key).isSome = (members.lookup key).isSome := by
    rw [lookup_formMembers_one hkey, Option.isSome_map]
  cases h with
  | demand hdemands => exact .demand (demands_formMembers_of_demands hdemands)
  | anyOf hnodes hnode =>
    exact .anyOf ((lookup_formMembers_list (by decide)).mpr ⟨_, hnodes, rfl⟩) (List.mem_map_of_mem hnode)
  | oneOf hnodes hnode =>
    exact .oneOf ((lookup_formMembers_list (by decide)).mpr ⟨_, hnodes, rfl⟩) (List.mem_map_of_mem hnode)
  | not hnode => exact .not (hone (by decide) hnode)
  | contains hknows hnode hx => exact .contains hknows (hone (by decide) hnode) hx
  | condition hknows hnode hsome =>
    rw [← hsame "then" (by decide), ← hsame "else" (by decide)] at hsome
    exact .condition hknows (hone (by decide) hnode) hsome
  | holds hknows hsome hnode =>
    exact .holds hknows ((hsame _ (by decide)).trans hsome) (hone (by decide) hnode)
  | fails hknows hsome hnode =>
    exact .fails hknows ((hsame _ (by decide)).trans hsome) (hone (by decide) hnode)

/-- The choices are the same, among schemas in that form. -/
theorem chooses_formMembers : Chooses draft admits (options.formMembers members) v ↔
    Chooses draft (fun node x => admits (options.form node) x) members v := by
  have hlist {key : String} (hkey : Nesting.ofKeyword key = .listOrOne) {P : List Json → Prop} :
      (∀ formed, (options.formMembers members).lookup key = some (.arr formed) → P formed) ↔
        ∀ nodes, members.lookup key = some (.arr nodes) → P (nodes.map options.form) := by
    simp only [lookup_formMembers_list hkey, forall_exists_index, and_imp]
    exact ⟨fun h nodes hnodes => h _ nodes hnodes rfl, fun h _ nodes hnodes hsame => hsame ▸ h nodes hnodes⟩
  have hone (key : String) (hkey : Nesting.ofKeyword key = .one) :
      (options.formMembers members).lookup key = (members.lookup key).map options.form := lookup_formMembers_one hkey
  rw [chooses_iff, chooses_iff, hone "not" (by decide), hone "contains" (by decide), hone "if" (by decide),
    hone "then" (by decide), hone "else" (by decide)]
  refine and_congr ?_ (and_congr ?_ (and_congr ?_ (and_congr ?_ (and_congr ?_ ?_))))
  · rw [hlist (by decide)]
    simp
  · rw [hlist (by decide)]
    simp
  · cases members.lookup "not" <;> simp
  · cases members.lookup "contains" <;> simp
  · cases members.lookup "if" <;> cases members.lookup "then" <;> simp
  · cases members.lookup "if" <;> cases members.lookup "else" <;> simp

end Options

section Requirements
open Requirement

/-- No names are listed that objects have to have. -/
structure ListsNoNames (members : List (String × Json)) : Prop where
  required : ∀ names, members.lookup "required" ≠ some (.arr names)
  dependencies : ∀ list name names, members.lookup "dependencies" = some (.obj list) → (name, Json.arr names) ∉ list

theorem ListsNoNames.requires (h : ListsNoNames members) (v : Json) : Requires members v :=
  ⟨fun names _ _ hnames _ _ => absurd hnames (h.required names),
    fun list _ name names _ hlist _ _ hnames _ => absurd hnames (h.dependencies list name names hlist)⟩

theorem lookup_stripMembers_required (members : List (String × Json)) (names : List Json) :
    (stripMembers members).lookup "required" ≠ some (.arr names) := by
  induction members with
  | nil => nofun
  | cons member rest ih =>
    obtain ⟨keyword, v⟩ := member
    rw [stripMembers]
    split
    · exact ih
    · rename_i hkept
      rw [List.lookup_cons]
      by_cases hkeyword : keyword = "required"
      · subst hkeyword
        rw [beq_self_eq_true]
        rintro hsome
        obtain hv := Option.some.inj hsome
        rw [stripAt_data (by decide)] at hv
        exact hkept (by simp [hv, Json.isArray])
      · rw [beq_eq_false_iff_ne.mpr (Ne.symm hkeyword)]
        exact ih

/-- Stripped members list no names. -/
theorem listsNoNames_stripMembers (members : List (String × Json)) : ListsNoNames (stripMembers members) := by
  refine ⟨lookup_stripMembers_required members, fun formed name names hformed hnames => ?_⟩
  have hform : (Options.formMembers ⟨false, true⟩ members).lookup "dependencies" = some (.obj formed) := hformed
  obtain ⟨list, _, rfl⟩ := Options.lookup_formMembers_dependencies.mp hform
  simp only [Options.formDependencies, if_true, stripDependencies_eq_map, List.mem_map, List.mem_filter,
    Bool.not_eq_true', Prod.mk.injEq] at hnames
  obtain ⟨⟨_, original⟩, ⟨_, harray⟩, _, hsame⟩ := hnames
  have harray' : (strip original).isArray = false := (isArray_strip original).trans harray
  rw [hsame] at harray'
  cases harray'

variable {options : Options}

/-- What a schema asks counts for what its form asks: no more is asked in the form, and no less where the form is the
schema itself or where there are no names to be lost. -/
theorem Options.meets_formMembers
    (h : polarity = .positive ∨ options.allowMissing = false ∨ ListsNoNames members) :
    polarity.Implies (MeetsRules draft occurs (fun node x => admits (options.form node) x) members v)
      (MeetsRules draft occurs admits (options.formMembers members) v) := by
  have hdemands : (∀ node x, Demands draft occurs members v node x → admits (options.form node) x) ↔
      ∀ node x, Demands draft occurs (options.formMembers members) v node x → admits node x := by
    constructor
    · intro hall node x hformed
      obtain ⟨original, hd, rfl⟩ := exists_of_demands_formMembers hformed
      exact hall original x hd
    · exact fun hall node x hd => hall _ x (demands_formMembers_of_demands hd)
  have hrequires : polarity.Implies (Requires members v) (Requires (options.formMembers members) v) := by
    have hlost : options.allowMissing = true → Requires (options.formMembers members) v := by
      intro hmissing
      rw [Options.formMembers, if_pos hmissing]
      exact (listsNoNames_stripMembers members).requires v
    rcases Bool.eq_false_or_eq_true options.allowMissing with hmissing | hmissing
    · rcases h with rfl | hsame | hnone
      · exact fun _ => hlost hmissing
      · cases hmissing.symm.trans hsame
      · exact polarity.implies_of_iff (iff_of_true (hnone.requires v) (hlost hmissing))
    · rw [Options.formMembers, if_neg (by simp [hmissing])]
      exact polarity.implies_refl _
  rw [meetsRules_iff, meetsRules_iff]
  exact .and (polarity.implies_of_iff hdemands) (.and (polarity.implies_of_iff chooses_formMembers.symm) hrequires)

end Requirements
end SchemaBound
