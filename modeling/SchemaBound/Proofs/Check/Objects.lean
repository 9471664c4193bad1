import SchemaBound.Proofs.Check.Members
import SchemaBound.Proofs.Check.Values

/-! Objects that are no references accept what meets the rules of Draft 7 for the schemas in them, and what their other
keywords ask of the value alone. -/
namespace SchemaBound
open Keyword Rule

/-- What a schema asks of the value alone. -/
structure MeetsOwn (draft : Draft) (members : List (String × Json)) (v : Json) : Prop where
  values : ∀ key w, members.lookup key = some w → Nesting.ofKeyword key = .data → key ≠ "required" →
    IsMet (fun _ _ _ _ => []) ⟨.unnamed, draft, []⟩ members key w v
  /-- Where no items are allowed, a schema for further ones leaves nothing to accept. -/
  items : members.lookup "items" = some (.bool false) → members.lookup "additionalItems" = none

/-- Keywords for the value alone ask the same of it everywhere in the draft. -/
theorem Keyword.isMet_value_iff {follow : Follow} {scope : Scope} {members : List (String × Json)} {key : String}
    {w v : Json} (hkey : Nesting.ofKeyword key = .data) :
    IsMet follow scope members key w v ↔ IsMet (fun _ _ _ _ => []) ⟨.unnamed, scope.draft, []⟩ members key w v :=
  isMet_congr rfl hkey fun _ _ _ => rfl

theorem MeetsOwn.congr {draft : Draft} {members members' : List (String × Json)} {v : Json}
    (hvalues : ∀ key, Nesting.ofKeyword key = .data → key ≠ "required" → members.lookup key = members'.lookup key)
    (hitems : members.lookup "items" = some (.bool false) ↔ members'.lookup "items" = some (.bool false))
    (hfurther : (members.lookup "additionalItems").isSome ↔ (members'.lookup "additionalItems").isSome)
    (h : MeetsOwn draft members v) : MeetsOwn draft members' v := by
  refine ⟨fun key w hw hkey hne => ?_, fun hfalse => ?_⟩
  · exact (isMet_congr rfl hkey hvalues).mp (h.values key w ((hvalues key hkey hne).trans hw) hkey hne)
  · rw [← Option.not_isSome_iff_eq_none, ← hfurther, Option.not_isSome_iff_eq_none]
    exact h.items (hitems.mpr hfalse)

/-- Members that nothing else is said of are those without a rule by name or by pattern. -/
theorem Keyword.Shares.isFurther_iff {follow : Follow} {scope : Scope} {members rules sources : List (String × Json)}
    (hshares : Shares follow scope members rules sources) (name : String) :
    IsFurther Pattern.Occurs members name ↔
      rules.lookup name = none ∧ ∀ source node, (source, node) ∈ sources → ¬ Pattern.Occurs source name := by
  constructor
  · rintro ⟨hundeclared, hunmatched⟩
    refine ⟨?_, fun source node hnode => ?_⟩
    · exact hshares.properties.elim (hundeclared rules) fun hnone => hnone.2 ▸ rfl
    · have hsources := hshares.patternProperties.lookup_of_ne_nil (List.ne_nil_of_mem hnode)
      exact hunmatched sources source node hsources hnode
  · rintro ⟨hundeclared, hunmatched⟩
    refine ⟨fun rules' hrules => ?_, fun sources' source node hsources hnode => ?_⟩
    · exact hshares.properties.eq_of_lookup hrules ▸ hundeclared
    · exact hunmatched source node (hshares.patternProperties.eq_of_lookup hsources ▸ hnode)

section Members

variable {follow : Follow} {scope : Scope} {members : List (String × Json)} (h : follow.IsSeatless)
  (hreads : ∀ key w, members.lookup key = some w → ∃ keyword?, readMember scope members key w = .ok keyword?)
include h hreads

/-- Schemas that are posed can be read. -/
theorem Rule.reads_of_demands {v node x : Json} (hdemands : Demands scope.draft Pattern.Occurs members v node x) :
    Reads scope node := by
  obtain ⟨rules, sources, hshares⟩ := exists_shares h hreads
  have hread {key : String} {w : Json} (hw : members.lookup key = some w) := (hreads key w hw).choose_spec
  cases hdemands with
  | property hlookup hnode _ =>
    obtain rfl := hshares.properties.eq_of_lookup hlookup
    exact hshares.reads_rules _ (Json.mem_of_lookup hnode)
  | matched hlookup hnode _ _ =>
    obtain rfl := hshares.patternProperties.eq_of_lookup hlookup
    exact hshares.reads_sources _ hnode
  | further hnode _ _ => exact hshares.reads_further node hnode
  | item hnode hschema _ => exact (items_iff_of_isSchema h hschema (hread hnode)).1
  | entry hnodes hnode _ => exact (items_iff_of_nodes h (hread hnodes)).1 node (List.mem_of_getElem? hnode)
  | furtherItem hnodes hnode hschema _ _ => exact (additionalItems_iff h hnodes hschema (hread hnode)).1
  | name hknows hnode hschema _ => exact (propertyNames_iff h hknows hschema (hread hnode)).1
  | allOf hnodes hnode =>
    obtain ⟨_, hsame, hall, _⟩ := allOf_iff h (hread hnodes)
    obtain rfl := Json.arr.inj hsame
    exact hall node hnode
  | dependency hlist hnode harray _ =>
    obtain ⟨_, hsame, hall, _⟩ := dependencies_iff h (hread hlist)
    obtain rfl := Json.obj.inj hsame
    exact hall _ node hnode harray

theorem Rule.reads_of_poses {way : Polarity} {v node x : Json}
    (hposes : Poses scope.draft Pattern.Occurs members way v node x) : Reads scope node := by
  have hread {key : String} {w : Json} (hw : members.lookup key = some w) := (hreads key w hw).choose_spec
  cases hposes with
  | demand hdemands => exact reads_of_demands h hreads hdemands
  | anyOf hnodes hnode =>
    obtain ⟨_, hsame, hall, _⟩ := anyOf_iff h (hread hnodes)
    obtain rfl := Json.arr.inj hsame
    exact hall node hnode
  | oneOf hnodes hnode =>
    obtain ⟨_, hsame, hall, _⟩ := oneOf_iff h (hread hnodes)
    obtain rfl := Json.arr.inj hsame
    exact hall node hnode
  | not hnode => exact (not_iff h (hread hnode)).1
  | contains hknows hnode _ => exact (contains_iff h hknows (hread hnode)).1
  | condition hknows hnode hother => exact (if_iff h hknows (hread hnode)).1 hother
  | holds hknows hcondition hnode =>
    obtain ⟨condition, hcondition⟩ := Option.isSome_iff_exists.mp hcondition
    exact (if_iff h hknows (hread hcondition)).2.1 node (.inl hnode)
  | fails hknows hcondition hnode =>
    obtain ⟨condition, hcondition⟩ := Option.isSome_iff_exists.mp hcondition
    exact (if_iff h hknows (hread hcondition)).2.1 node (.inr hnode)

variable {v : Json}

section Met

variable (hall : ∀ key w, members.lookup key = some w → IsMet follow scope members key w v)
include hall

theorem Keyword.chooses_of_isMet : Chooses scope.draft (Accepts follow scope) members v := by
  have hread {key : String} {w : Json} (hw : members.lookup key = some w) := (hreads key w hw).choose_spec
  refine ⟨fun nodes hnodes => ?_, fun nodes hnodes => ?_, fun node hnode => ?_, fun hknows node hnode => ?_,
    fun hknows condition hcondition => ?_, fun hknows condition hcondition => ?_⟩
  · obtain ⟨_, hsame, _, hmet⟩ := anyOf_iff h (hread hnodes)
    obtain rfl := Json.arr.inj hsame
    exact (hmet v).mp (hall _ _ hnodes)
  · obtain ⟨_, hsame, _, hmet⟩ := oneOf_iff h (hread hnodes)
    obtain rfl := Json.arr.inj hsame
    exact (hmet v).mp (hall _ _ hnodes)
  · exact ((not_iff h (hread hnode)).2 v).mp (hall _ _ hnode)
  · exact ((contains_iff h hknows (hread hnode)).2 v).mp (hall _ _ hnode)
  · exact (((if_iff h hknows (hread hcondition)).2.2 v).mp (hall _ _ hcondition)).1
  · exact (((if_iff h hknows (hread hcondition)).2.2 v).mp (hall _ _ hcondition)).2

theorem Keyword.requires_of_isMet : Requires members v := by
  have hread {key : String} {w : Json} (hw : members.lookup key = some w) := (hreads key w hw).choose_spec
  refine ⟨fun names data name hnames hdata hname => ?_, fun list data name names other hlist hdata hsome hnames => ?_⟩
  · obtain ⟨_, hsame, hmet⟩ := required_iff (hread hnames)
    obtain rfl := Json.arr.inj hsame
    exact (hmet v).mp (hall _ _ hnames) data hdata name hname
  · obtain ⟨_, hsame, _, hmet⟩ := dependencies_iff h (hread hlist)
    obtain rfl := Json.obj.inj hsame
    exact ((hmet v).mp (hall _ _ hlist) data hdata name _ hnames hsome).2 names rfl other

omit h hreads in
theorem Keyword.meetsOwn_of_isMet : MeetsOwn scope.draft members v := by
  refine ⟨fun key w hw hkey _ => (isMet_value_iff hkey).mp (hall key w hw), fun hfalse => ?_⟩
  rw [← Option.not_isSome_iff_eq_none, Option.isSome_iff_exists]
  rintro ⟨w, hw⟩
  exact (isMet_additionalItems_iff (by simp [hfalse])).mp (hall _ _ hw) hfalse

end Met

section Meeting

variable {w : Json} (hmeets : MeetsRules scope.draft Pattern.Occurs (Accepts follow scope) members v)
include hmeets

theorem Keyword.isMet_items_of_meets (hw : members.lookup "items" = some w) :
    IsMet follow scope members "items" w v := by
  obtain ⟨_, hread⟩ := hreads _ _ hw
  by_cases hschema : w.isSchema
  · refine ((items_iff_of_isSchema h hschema hread).2 v).mpr ?_
    rintro items rfl x hx
    exact hmeets.demands w x (.item hw hschema hx)
  · cases w with
    | arr nodes =>
      refine ((items_iff_of_nodes h hread).2 v).mpr ?_
      rintro items rfl i node x hnode hx
      exact hmeets.demands node x (.entry hw hnode hx)
    | obj _ | bool _ => exact absurd rfl hschema
    | _ => exact isMet_items rfl rfl v

theorem Keyword.isMet_additionalItems_of_meets (hown : MeetsOwn scope.draft members v)
    (hw : members.lookup "additionalItems" = some w) : IsMet follow scope members "additionalItems" w v := by
  obtain ⟨_, hread⟩ := hreads _ _ hw
  by_cases hnodes : ∃ nodes, members.lookup "items" = some (.arr nodes)
  · obtain ⟨nodes, hnodes⟩ := hnodes
    by_cases hschema : w.isSchema
    · refine ((additionalItems_iff h hnodes hschema hread).2 v).mpr ?_
      rintro items rfl i x hle hx
      exact hmeets.demands w x (.furtherItem hnodes hw hschema hle hx)
    · exact isMet_additionalItems hnodes (Bool.eq_false_iff.mpr hschema) v
  · refine (isMet_additionalItems_iff (not_exists.mp hnodes)).mpr fun hfalse => ?_
    cases hw.symm.trans (hown.items hfalse)

theorem Keyword.isMet_propertyNames_of_meets (hw : members.lookup "propertyNames" = some w) :
    IsMet follow scope members "propertyNames" w v := by
  obtain ⟨_, hread⟩ := hreads _ _ hw
  by_cases hknows : scope.draft.knows "propertyNames"
  · by_cases hschema : w.isSchema
    · refine ((propertyNames_iff h hknows hschema hread).2 v).mpr ?_
      rintro data rfl name x hx
      exact hmeets.demands w _ (.name hknows hw hschema hx)
    · exact isMet_propertyNames (Bool.eq_false_iff.mpr hschema) v
  · exact isMet_of_not_knows hknows v

theorem Keyword.isMet_dependencies_of_meets (hw : members.lookup "dependencies" = some w) :
    IsMet follow scope members "dependencies" w v := by
  obtain ⟨_, hread⟩ := hreads _ _ hw
  obtain ⟨list, rfl, _, hmet⟩ := dependencies_iff h hread
  refine (hmet v).mpr ?_
  rintro data rfl name node hnode hsome
  refine ⟨fun harray => hmeets.demands node _ (.dependency hw hnode harray hsome), ?_⟩
  rintro names rfl other hother
  exact hmeets.requirements.dependencies list data name names other hw rfl hsome hnode hother

end Meeting

variable (hdistinct : (Json.obj members).hasDistinctNames) (hv : v.hasDistinctNames)
include hdistinct hv

/-- What is asked of the members of objects is that schemas accept them. -/
theorem Keyword.isMet_members_iff :
    (∀ key ∈ ["properties", "patternProperties", "additionalProperties"], ∀ w, members.lookup key = some w →
      IsMet follow scope members key w v) ↔
    (∀ rules, members.lookup "properties" = some (.obj rules) → ∀ data, v = .obj data → ∀ name node x,
      rules.lookup name = some node → data.lookup name = some x → Accepts follow scope node x) ∧
    (∀ sources, members.lookup "patternProperties" = some (.obj sources) → ∀ data, v = .obj data → ∀ source node name x,
      (source, node) ∈ sources → (name, x) ∈ data → Pattern.Occurs source name → Accepts follow scope node x) ∧
    (∀ node, members.lookup "additionalProperties" = some node → ∀ data, v = .obj data → ∀ name x, (name, x) ∈ data →
      IsFurther Pattern.Occurs members name → Accepts follow scope node x) := by
  obtain ⟨rules, sources, hshares⟩ := exists_shares h hreads
  have hnodup : (rules.map (·.1)).Nodup := by
    rcases hshares.properties with hlookup | ⟨_, rfl⟩
    · exact Json.nodup_names (Json.hasDistinctNames_obj hdistinct (Json.mem_of_lookup hlookup))
    · exact List.nodup_nil
  rw [hshares.isMet_iff v hv hnodup]
  constructor
  · intro hall
    refine ⟨?_, ?_, ?_⟩
    · rintro rules' hrules data rfl name node x hnode hx
      obtain rfl := hshares.properties.eq_of_lookup hrules
      exact (hall data rfl name x (Json.mem_of_lookup hx)).declared node hnode
    · rintro sources' hsources data rfl source node name x hnode hx hoccurs
      obtain rfl := hshares.patternProperties.eq_of_lookup hsources
      exact (hall data rfl name x hx).matched source node hnode hoccurs
    · rintro node hnode data rfl name x hx hname
      exact (hall data rfl name x hx).further ((hshares.isFurther_iff name).mp hname) node hnode
  · rintro ⟨hnamed, hmatched, hother⟩ data rfl name x hx
    refine ⟨fun node hnode => ?_, fun source node hnode hoccurs => ?_, fun hname node hnode => ?_⟩
    · have hrules := hshares.properties.lookup_of_ne_nil fun hnil => by simp [hnil] at hnode
      exact hnamed rules hrules data rfl name node x hnode (Json.lookup_of_mem (Json.nodup_names hv) hx)
    · have hsources := hshares.patternProperties.lookup_of_ne_nil (List.ne_nil_of_mem hnode)
      exact hmatched sources hsources data rfl source node name x hnode hx hoccurs
    · exact hother node hnode data rfl name x hx ((hshares.isFurther_iff name).mpr hname)

theorem Keyword.accepts_of_demands (hall : ∀ key w, members.lookup key = some w → IsMet follow scope members key w v)
    {node x : Json} (hdemands : Demands scope.draft Pattern.Occurs members v node x) : Accepts follow scope node x := by
  have hread {key : String} {w : Json} (hw : members.lookup key = some w) := (hreads key w hw).choose_spec
  have hobject := (isMet_members_iff h hreads hdistinct hv).mp fun key _ w hw => hall key w hw
  cases hdemands with
  | property hrules hnode hx => exact hobject.1 _ hrules _ rfl _ node x hnode hx
  | matched hsources hnode hx hoccurs => exact hobject.2.1 _ hsources _ rfl _ node _ x hnode hx hoccurs
  | further hnode hx hname => exact hobject.2.2 node hnode _ rfl _ x hx hname
  | item hnode hschema hx => exact ((items_iff_of_isSchema h hschema (hread hnode)).2 _).mp (hall _ _ hnode) _ rfl x hx
  | entry hnodes hnode hx =>
    exact ((items_iff_of_nodes h (hread hnodes)).2 _).mp (hall _ _ hnodes) _ rfl _ node x hnode hx
  | furtherItem hnodes hnode hschema hle hx =>
    exact ((additionalItems_iff h hnodes hschema (hread hnode)).2 _).mp (hall _ _ hnode) _ rfl _ x hle hx
  | name hknows hnode hschema hx =>
    exact ((propertyNames_iff h hknows hschema (hread hnode)).2 _).mp (hall _ _ hnode) _ rfl _ _ hx
  | allOf hnodes hnode =>
    obtain ⟨_, hsame, _, hmet⟩ := allOf_iff h (hread hnodes)
    obtain rfl := Json.arr.inj hsame
    exact (hmet _).mp (hall _ _ hnodes) node hnode
  | dependency hlist hnode harray hsome =>
    obtain ⟨_, hsame, _, hmet⟩ := dependencies_iff h (hread hlist)
    obtain rfl := Json.obj.inj hsame
    exact ((hmet _).mp (hall _ _ hlist) _ rfl _ node hnode hsome).1 harray

theorem Keyword.isMet_member_of_meets
    (hmeets : MeetsRules scope.draft Pattern.Occurs (Accepts follow scope) members v) {key : String} {w : Json}
    (hkey : key ∈ ["properties", "patternProperties", "additionalProperties"]) (hw : members.lookup key = some w) :
    IsMet follow scope members key w v := by
  refine (isMet_members_iff h hreads hdistinct hv).mpr ⟨?_, ?_, ?_⟩ key hkey w hw
  · rintro rules hrules data rfl name node x hnode hx
    exact hmeets.demands node x (.property hrules hnode hx)
  · rintro sources hsources data rfl source node name x hnode hx hoccurs
    exact hmeets.demands node x (.matched hsources hnode hx hoccurs)
  · rintro node hnode data rfl name x hx hname
    exact hmeets.demands node x (.further hnode hx hname)

/-- The members that ask of schemas what the rules do: one case for each keyword. -/
theorem Keyword.isMet_of_meets (hmeets : MeetsRules scope.draft Pattern.Occurs (Accepts follow scope) members v)
    (hown : MeetsOwn scope.draft members v) {key : String} {w : Json} (hw : members.lookup key = some w) :
    IsMet follow scope members key w v := by
  obtain ⟨_, hread⟩ := hreads key w hw
  by_cases hdata : Nesting.ofKeyword key = .data
  · by_cases hrequired : key = "required"
    · subst hrequired
      obtain ⟨names, rfl, hmet⟩ := required_iff hread
      exact (hmet v).mpr fun data hdata name hname => hmeets.requirements.required names data name hw hdata hname
    · exact (isMet_value_iff hdata).mpr (hown.values key w hw hdata hrequired)
  · have hkey : key ∈ _ := not_not.mp (mt Nesting.ofKeyword_eq_data_iff.mpr hdata)
    simp only [List.mem_cons, List.not_mem_nil, or_false] at hkey
    rcases hkey with rfl | rfl | rfl | rfl | rfl | rfl | rfl | rfl | rfl | rfl | rfl | rfl | rfl | rfl | rfl | rfl |
      rfl | rfl
    · exact isMet_member_of_meets h hreads hdistinct hv hmeets (by decide) hw
    · exact isMet_member_of_meets h hreads hdistinct hv hmeets (by decide) hw
    · exact isMet_of_eq_none (readMember_unused (.inl rfl))
    · exact isMet_of_eq_none (readMember_unused (.inr (.inl rfl)))
    · exact isMet_items_of_meets h hreads hmeets hw
    · obtain ⟨nodes, rfl, _, hmet⟩ := allOf_iff h hread
      exact (hmet v).mpr fun node hnode => hmeets.demands node v (.allOf hw hnode)
    · obtain ⟨nodes, rfl, _, hmet⟩ := anyOf_iff h hread
      exact (hmet v).mpr (hmeets.choices.anyOf nodes hw)
    · obtain ⟨nodes, rfl, _, hmet⟩ := oneOf_iff h hread
      exact (hmet v).mpr (hmeets.choices.oneOf nodes hw)
    · exact isMet_of_eq_none (readMember_unused (.inr (.inr rfl)))
    · exact isMet_member_of_meets h hreads hdistinct hv hmeets (by decide) hw
    · exact isMet_additionalItems_of_meets h hreads hmeets hown hw
    · by_cases hknows : scope.draft.knows "contains"
      · exact ((contains_iff h hknows hread).2 v).mpr (hmeets.choices.contains hknows w hw)
      · exact isMet_of_not_knows hknows v
    · exact ((not_iff h hread).2 v).mpr (hmeets.choices.not w hw)
    · by_cases hknows : scope.draft.knows "if"
      · exact ((if_iff h hknows hread).2.2 v).mpr
          ⟨hmeets.choices.holds hknows w hw, hmeets.choices.fails hknows w hw⟩
      · exact isMet_of_not_knows hknows v
    · exact isMet_of_eq_none (readMember_outcome (.inl rfl))
    · exact isMet_of_eq_none (readMember_outcome (.inr rfl))
    · exact isMet_propertyNames_of_meets h hreads hmeets hw
    · exact isMet_dependencies_of_meets h hreads hmeets hw

/-- All members are met exactly if the rules for the schemas in them are, and what they ask of the value alone. -/
theorem Keyword.forall_isMet_iff :
    (∀ key w, members.lookup key = some w → IsMet follow scope members key w v) ↔
      MeetsRules scope.draft Pattern.Occurs (Accepts follow scope) members v ∧ MeetsOwn scope.draft members v := by
  constructor
  · intro hall
    exact ⟨⟨fun _ _ => accepts_of_demands h hreads hdistinct hv hall, chooses_of_isMet h hreads hall,
      requires_of_isMet h hreads hall⟩, meetsOwn_of_isMet hall⟩
  · rintro ⟨hmeets, hown⟩ key w hw
    exact isMet_of_meets h hreads hdistinct hv hmeets hown hw

end Members

section Objects

variable {follow : Follow} {scope : Scope} {members : List (String × Json)} (h : follow.IsSeatless)
  (hnone : members.lookup "$ref" = none) (hdistinct : (Json.obj members).hasDistinctNames)
  (hread : Reads scope (.obj members))
include hnone hread

/-- What an object that is no reference holds is read somewhere in the same draft. -/
theorem Rule.exists_inside_of_reads :
    ∃ inner, scope.inside (.obj members) = .ok inner ∧ inner.draft = scope.draft := by
  obtain ⟨rule, hread⟩ := hread
  rw [read, ofMembers, hnone] at hread
  obtain ⟨inner, hinner, _⟩ := Success.bind_eq_ok.mp hread
  refine ⟨inner, hinner, ?_⟩
  unfold Scope.inside at hinner
  split at hinner
  · obtain ⟨location, _, rfl⟩ := Success.map_eq_ok.mp hinner
    rfl
  · exact congrArg Scope.draft (Except.ok.inj hinner).symm

variable {inner : Scope} (hinner : scope.inside (.obj members) = .ok inner)
include h hdistinct hinner

theorem Rule.reads_inside_of_poses {way : Polarity} {v node x : Json}
    (hposes : Poses scope.draft Pattern.Occurs members way v node x) : Reads inner node := by
  obtain ⟨rule, hrule⟩ := hread
  obtain ⟨hmembers, _⟩ := accepts_obj_iff follow hnone (Json.nodup_names hdistinct) hinner hrule
  obtain ⟨inner', hinner', hdraft⟩ := exists_inside_of_reads hnone ⟨rule, hrule⟩
  obtain rfl := Except.ok.inj (hinner.symm.trans hinner')
  exact reads_of_poses h hmembers (hdraft ▸ hposes)

/-- An object that is no reference accepts what meets the rules for the schemas in it, and what it asks of the value
alone. -/
theorem Rule.accepts_iff_meets {v : Json} (hv : v.hasDistinctNames) : Accepts follow scope (.obj members) v ↔
    MeetsRules scope.draft Pattern.Occurs (Accepts follow inner) members v ∧ MeetsOwn scope.draft members v := by
  obtain ⟨rule, hrule⟩ := hread
  obtain ⟨hmembers, haccepts⟩ := accepts_obj_iff follow hnone (Json.nodup_names hdistinct) hinner hrule
  obtain ⟨inner', hinner', hdraft⟩ := exists_inside_of_reads hnone ⟨rule, hrule⟩
  obtain rfl := Except.ok.inj (hinner.symm.trans hinner')
  rw [haccepts, Keyword.forall_isMet_iff h hmembers hdistinct hv, hdraft]

omit h in
/-- What an object accepts that is no reference is of one of the types that it declares. -/
theorem Rule.exists_type_of_meetsOwn {v : Json} (hown : MeetsOwn scope.draft members v)
    (htype : (members.lookup "type").isSome) : ∃ word ∈ Coercion.declaredTypes (.obj members), ∃ name,
      TypeName.ofWord? word = some name ∧ name.admits scope.draft v := by
  obtain ⟨rule, hrule⟩ := hread
  obtain ⟨w, hw⟩ := Option.isSome_iff_exists.mp htype
  obtain ⟨hmembers, _⟩ := accepts_obj_iff (fun _ _ _ _ => []) hnone (Json.nodup_names hdistinct) hinner hrule
  obtain ⟨inner', hinner', hdraft⟩ := exists_inside_of_reads hnone ⟨rule, hrule⟩
  obtain rfl := Except.ok.inj (hinner.symm.trans hinner')
  obtain ⟨keyword?, hread⟩ := hmembers "type" w hw
  have hmet : IsMet (fun _ _ _ _ => []) inner members "type" w v :=
    (isMet_value_iff (by decide)).mpr (hdraft.symm ▸ hown.values "type" w hw (by decide) (by decide))
  have hknows : inner.draft.knows "type" := Draft.knows_of_mem (by decide) _
  have hmember := hread
  rw [readMember_value (by decide)] at hmember
  simp only [hknows, Bool.not_true, Bool.false_eq_true, if_false, readValue] at hmember
  obtain ⟨keyword, hkeyword, rfl⟩ := Success.map_eq_ok.mp hmember
  exact hdraft ▸ exists_of_readType hkeyword hw ((isMet_some hread).mp hmet)

end Objects
end SchemaBound
