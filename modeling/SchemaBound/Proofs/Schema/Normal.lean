import SchemaBound.Proofs.Schema.Gathered

/-! Schemas are made once. Nothing is left to gather in the document of a schema, and it is still read as a document;
a mapping of typed rules is read as fields unless its names are those of a document without `type`. -/
namespace SchemaBound
open Json

namespace Requirement

variable {standing : Standing} {members : List (String × Json)} {keyword : String} {v : Json}

/-- Nothing is left to gather once the flags of the value are gathered. -/
def IsSettled (v : Json) : Prop := ∀ standing, gathered standing (gathered standing v) = gathered standing v

theorem hasDistinctNames_gathered (standing : Standing) (h : v.hasDistinctNames) :
    (gathered standing v).hasDistinctNames := by
  cases standing
  · exact hasDistinctNames_hoistRule h
  · exact hasDistinctNames_hoist h

theorem isArray_hoist (v : Json) : (hoist v).isArray = v.isArray := by
  cases v with
  | obj members => rw [hoist]; rfl
  | _ => simp [hoist]

theorem flaggedNames_gatherMembers (standing : Standing) (h : (Json.obj members).hasDistinctNames) :
    flaggedNames (gatherMembers standing members) = [] := by
  unfold flaggedNames
  split
  · rename_i rules hrules
    rw [List.map_eq_nil_iff, List.filter_eq_nil_iff]
    intro rule hrule
    simpa [isFlagged] using (gathers_gatherMembers standing h).noFlags rules hrules rule hrule true
  · rfl

theorem not_hasFlag_gatherMembers (standing : Standing) (h : (Json.obj members).hasDistinctNames) :
    ¬ HasFlag standing (gatherMembers standing members) := by
  rintro ⟨rfl, flag, hflag⟩
  have hrule : hoistRule (.obj members) = .obj (gatherMembers .rule members) := gathered_obj .rule members
  exact get_required_hoistRule h flag (hrule ▸ hflag)

/-- The value of a keyword is settled if the schemas in it are. -/
theorem hoistAt_hoistAt (hd : v.hasDistinctNames)
    (hparts : ∀ part, part = v ∨ part ∈ v.contents → part.hasDistinctNames → IsSettled part) :
    hoistAt keyword (hoistAt keyword v) = hoistAt keyword v := by
  by_cases hnode : IsNode keyword v
  · have hstill : IsNode keyword (hoist v) := hnode.imp_right fun hlist => isArray_hoist v ▸ hlist
    rw [hoistAt_value hnode, hoistAt_value hstill]
    exact hparts v (.inl rfl) hd .schema
  by_cases hname : keyword ∈ nameKeywords
  · cases v with
    | obj entries =>
      rw [hoistAt_named hname, hoistAt_named hname, List.map_map, Json.obj.injEq]
      refine List.map_congr_left fun entry hentry => Prod.ext rfl ?_
      have hinside : entry.2 ∈ (Json.obj entries).contents := by
        rw [contents]
        exact mem_memberContents hentry
      exact hparts _ (.inr hinside) (hasDistinctNames_obj hd hentry) _
    | _ => simp only [hoistAt_of_not_isObject hname, isObject, Bool.false_eq_true, not_false_eq_true]
  by_cases hlist : keyword ∈ listKeywords
  · cases v with
    | arr nodes =>
      rw [hoistAt_listed hlist, hoistAt_listed hlist, List.map_map, Json.arr.injEq]
      refine List.map_congr_left fun node hmem => ?_
      have hinside : node ∈ (Json.arr nodes).contents := by
        rw [contents]
        exact mem_itemContents hmem
      exact hparts _ (.inr hinside) (hasDistinctNames_arr hd hmem) .schema
    | _ => exact absurd (.inr ⟨hlist, by simp [isArray]⟩) hnode
  · have hdata := hoistNesting_of_not_mem hname hlist fun hone => hnode (.inl hone)
    rw [hoistAt_data hdata, hoistAt_data hdata]

/-- Gathering flags a second time changes nothing. -/
theorem isSettled_of_hasDistinctNames (hd : v.hasDistinctNames) : IsSettled v := by
  induction v using contents_induction with
  | h v ih =>
    intro standing
    cases v with
    | obj members =>
      have hafter := hasDistinctNames_gathered standing hd
      rw [gathered_obj] at hafter
      have hmembers : hoistMembers (gatherMembers standing members) = gatherMembers standing members := by
        rw [hoistMembers_eq_map]
        refine (List.map_congr_left fun member hmem => ?_).trans (List.map_id _)
        refine Prod.ext rfl ?_
        have hlookup := lookup_of_mem (nodup_names hafter) hmem
        by_cases hrequired : member.1 = "required"
        · exact hoistAt_data (hrequired ▸ by decide) _
        · rw [lookup_gatherMembers_ne (nodup_names hd) hrequired] at hlookup
          obtain ⟨value, hvalue, hsame⟩ := Option.map_eq_some_iff.mp hlookup
          have hinside := mem_contents_of_lookup hvalue
          have hdistinct := hasDistinctNames_obj hd (mem_of_lookup hvalue)
          change hoistAt member.1 member.2 = member.2
          rw [← hsame]
          refine hoistAt_hoistAt hdistinct ?_
          rintro part (rfl | hpart)
          · exact ih _ hinside
          · exact ih part (contents_trans _ hinside hpart)
      rw [gathered_obj, gathered_obj, gatherMembers, hmembers, flaggedNames_gatherMembers standing hd,
        unflag_of_not_hasFlag (not_hasFlag_gatherMembers standing hd), require, if_pos rfl]
    | _ => simp only [gathered_of_not_isObject, isObject, Bool.false_eq_true, not_false_eq_true]

theorem hoist_hoist (hd : v.hasDistinctNames) : hoist (hoist v) = hoist v := isSettled_of_hasDistinctNames hd .schema

end Requirement

namespace Schema
open Requirement

variable {members fields : List (String × Json)} {v : Json} {schema : Schema} {key : String}

theorem lookup_document (hkey : key ≠ "required") (members : List (String × Json)) :
    (gatherMembers .schema members).lookup key = (members.lookup key).map (hoistAt key) := by
  change (require (flaggedNames members) (hoistMembers members)).lookup key = _
  rw [lookup_require_ne hkey, lookup_hoistMembers]

theorem names_document (members : List (String × Json)) : (gatherMembers .schema members).map (·.1) =
    members.map (·.1) ++ if members.lookup "required" = none ∧ flaggedNames members ≠ [] then ["required"] else [] := by
  change (require (flaggedNames members) (hoistMembers members)).map (·.1) = _
  rw [names_require, names_hoistMembers, lookup_required_hoistMembers]

theorem isObject_gathered (standing : Standing) (v : Json) : (gathered standing v).isObject = v.isObject := by
  cases v with
  | obj members => rw [gathered_obj]; rfl
  | _ => rw [gathered_of_not_isObject (by simp [isObject])]

theorem isBool_gathered (standing : Standing) (v : Json) : (gathered standing v).isBool = v.isBool := by
  cases v with
  | obj members => rw [gathered_obj]; rfl
  | _ => rw [gathered_of_not_isObject (by simp [isObject])]

theorem isObject_hoistAt (key : String) (v : Json) : (hoistAt key v).isObject = v.isObject := by
  cases v with
  | obj members =>
    rw [hoistAt]
    split <;> rfl
  | arr items =>
    rw [hoistAt]
    split <;> rfl
  | _ => simp [hoistAt]

/-- A marker of a document stays one. -/
theorem isMarkerValue_hoistAt (hkey : key ∈ markers) (h : isMarkerValue key v) : isMarkerValue key (hoistAt key v) := by
  by_cases hdefinitions : key = "definitions" ∨ key = "$defs"
  · have hname : key ∈ nameKeywords := by
      rcases hdefinitions with rfl | rfl <;> decide
    unfold isMarkerValue at h ⊢
    rw [if_pos hdefinitions] at h ⊢
    cases v with
    | obj definitions =>
      rw [hoistAt_named hname]
      simpa only [List.all_map, Function.comp_def, isObject_gathered, isBool_gathered] using h
    | _ => cases h
  · have hdata : hoistNesting key = .data := by
      have hrest : key = "$schema" ∨ key = "$id" ∨ key = "$ref" := by
        simp only [markers, List.mem_cons, List.not_mem_nil, or_false] at hkey
        tauto
      rcases hrest with rfl | rfl | rfl <;> decide
    rw [hoistAt_data hdata]
    exact h

/-- The members are read as a document for their `type`, for a marker, or for `properties` among keywords only. -/
theorem looksLikeDocument_iff : looksLikeDocument members ↔
    (∃ type, members.lookup "type" = some type ∧ (type.isText ∨ type.isArray)) ∨
    (∃ key ∈ markers, ∃ value, members.lookup key = some value ∧ isMarkerValue key value) ∨
    (∃ rules, members.lookup "properties" = some rules ∧ rules.isObject) ∧
      ∀ name ∈ members.map (·.1), name ∈ objectKeywords := by
  have hany : looksLikeDocument members = ((members.lookup "type").any (fun type => type.isText || type.isArray) ||
      markers.any (fun key => (members.lookup key).any (isMarkerValue key)) ||
      ((members.lookup "properties").any isObject && members.all fun member => member.1 ∈ objectKeywords)) := by
    unfold looksLikeDocument
    congr
    · cases members.lookup "type" <;> rfl
    · funext key
      cases members.lookup key <;> rfl
    · cases members.lookup "properties" <;> rfl
  rw [hany, Bool.or_eq_true, Bool.or_eq_true, Bool.and_eq_true, List.any_eq_true, List.all_eq_true, or_assoc]
  simp only [Option.any_eq_true, Bool.or_eq_true, decide_eq_true_eq, List.forall_mem_map]

/-- What is read as a document is still read as one with its flags gathered. -/
theorem looksLikeDocument_gatherMembers (h : looksLikeDocument members) :
    looksLikeDocument (gatherMembers .schema members) := by
  rw [looksLikeDocument_iff] at h ⊢
  rcases h with ⟨type, htype, hform⟩ | ⟨key, hkey, value, hvalue, hmarker⟩ | ⟨⟨rules, hrules, hobject⟩, hnames⟩
  · refine .inl ⟨type, ?_, hform⟩
    rw [lookup_document (by decide), htype, Option.map_some, hoistAt_data (by decide)]
  · have hrequired : key ≠ "required" := by
      rintro rfl
      revert hkey
      decide
    refine .inr (.inl ⟨key, hkey, hoistAt key value, ?_, isMarkerValue_hoistAt hkey hmarker⟩)
    rw [lookup_document hrequired, hvalue, Option.map_some]
  · refine .inr (.inr ⟨⟨hoistAt "properties" rules, ?_, isObject_hoistAt _ rules ▸ hobject⟩, fun name hname => ?_⟩)
    · rw [lookup_document (by decide), hrules, Option.map_some]
    · -- The only name that can be new is `required`.
      rw [names_document, List.mem_append] at hname
      rcases hname with hold | hnew
      · exact hnames name hold
      · split at hnew
        · rw [List.mem_singleton.mp hnew]
          decide
        · cases hnew

theorem ofDocument_obj (members : List (String × Json)) :
    ofDocument (.obj members) = .ok ⟨.obj (gatherMembers .schema members)⟩ :=
  congrArg (fun document => Except.ok (Schema.mk document)) (gathered_obj .schema members)

/-- A document that is made is its own normal form. -/
theorem ofDocument_document (hd : v.hasDistinctNames) (h : ofDocument v = .ok schema) :
    ofDocument schema.document = .ok schema := by
  unfold ofDocument at h ⊢
  split at h
  · rename_i hobject
    obtain rfl := Except.ok.inj h
    have hstill : (hoist v).isObject := (isObject_gathered .schema v).trans hobject
    simp only [hstill, if_true, hoist_hoist hd]
  · cases h

/-- Members read as a document give a document that is read as itself. -/
theorem parse_document (hd : (Json.obj members).hasDistinctNames) (h : looksLikeDocument members)
    (hschema : ofDocument (.obj members) = .ok schema) : parse schema.document = .ok schema := by
  have hagain := ofDocument_document hd hschema
  rw [ofDocument_obj] at hschema
  obtain rfl := Except.ok.inj hschema
  rw [parse, if_pos (looksLikeDocument_gatherMembers h)]
  exact hagain

theorem hasDistinctNames_wrapped (hd : (Json.obj fields).hasDistinctNames) :
    (Json.obj [("type", .str "object"), ("properties", .obj fields)]).hasDistinctNames := by
  simpa [hasDistinctNames, membersHaveDistinctNames] using hd

/-- Making a schema again from the document of one, either way, gives the same schema. -/
structure IsFixed (schema : Schema) : Prop where
  parse : parse schema.document = .ok schema
  ofDocument : ofDocument schema.document = .ok schema

theorem isFixed_ofFields (hd : (Json.obj fields).hasDistinctNames) : IsFixed (ofFields fields) := by
  have hwrapped := hasDistinctNames_wrapped hd
  exact ⟨parse_document hwrapped (by rfl) rfl, ofDocument_document hwrapped rfl⟩

theorem isFixed_parse (hd : v.hasDistinctNames) (h : Schema.parse v = .ok schema) : IsFixed schema := by
  cases v with
  | obj members =>
    rw [Schema.parse] at h
    split at h
    · rename_i hdocument
      exact ⟨parse_document hd hdocument h, ofDocument_document hd h⟩
    · obtain rfl := Except.ok.inj h
      exact isFixed_ofFields hd
  | _ => cases h

/-- Schemas are fixed points of what makes them. -/
theorem made_once (hd : v.hasDistinctNames) :
    (∀ schema, parse v = .ok schema → IsFixed schema) ∧
    (∀ fields, v = .obj fields → IsFixed (ofFields fields)) ∧
    ∀ schema, ofDocument v = .ok schema → ofDocument schema.document = .ok schema := by
  refine ⟨fun schema => isFixed_parse hd, ?_, fun schema => ofDocument_document hd⟩
  rintro fields rfl
  exact isFixed_ofFields hd

/-- A document without `type` gets a list, its rule loses a flag and gets a list, and nothing is left to do. -/
theorem made_once_nested :
    let v : Json := .obj [("properties", .obj [("a", .obj [("required", .bool true), ("title", .str "t"),
      ("properties", .obj [("b", .obj [("required", .bool true)])])])])]
    let schema : Schema := ⟨.obj [("properties", .obj [("a", .obj [("properties", .obj [("b", .obj [])]),
      ("title", .str "t"), ("required", .arr [.str "b"])])]), ("required", .arr [.str "a"])]⟩
    v.hasDistinctNames ∧ parse v = .ok schema ∧ IsFixed schema ∧ ofDocument schema.document = .ok schema := by
  intro v schema
  have hd : v.hasDistinctNames := by decide +kernel
  have hparse : parse v = .ok schema := by rfl
  have hmade := made_once hd
  exact ⟨hd, hparse, hmade.1 schema hparse, hmade.2.2 schema rfl⟩

/-- The value is a rule with a `type` that a rule can have. -/
def IsTypedRule (rule : Json) : Prop := ∃ type, rule.get? "type" = some type ∧ (type.isText ∨ type.isArray)

theorem IsTypedRule.isObject {rule : Json} (h : IsTypedRule rule) : rule.isObject := by
  obtain ⟨type, htype, _⟩ := h
  cases rule with
  | obj keywords => rfl
  | _ => cases htype

/-- A typed rule is no marker of a document. Its own `type` is no schema. -/
theorem IsTypedRule.not_isMarkerValue {rule : Json} (h : IsTypedRule rule) (key : String) :
    ¬ isMarkerValue key rule := by
  obtain ⟨type, htype, hform⟩ := h
  cases rule with
  | obj keywords =>
    unfold isMarkerValue
    split
    · have hentry : ("type", type) ∈ keywords := mem_of_lookup htype
      rw [List.all_eq_true]
      intro hall
      have hschema := hall _ hentry
      cases type <;> simp_all [Json.isObject, Json.isBool, isText, isArray]
    · simp [isText]
  | _ => cases htype

/-- Typed rules are read as a document for their names alone. -/
theorem looksLikeDocument_typedRules {rules : List (String × Json)} (h : ∀ rule ∈ rules, IsTypedRule rule.2) :
    looksLikeDocument rules ↔
      "properties" ∈ rules.map (·.1) ∧ ∀ name ∈ rules.map (·.1), name ∈ objectKeywords := by
  have hrule {name : String} {rule : Json} (hlookup : rules.lookup name = some rule) : IsTypedRule rule :=
    h _ (mem_of_lookup hlookup)
  rw [looksLikeDocument_iff]
  constructor
  · rintro (⟨type, htype, hform⟩ | ⟨key, _, value, hvalue, hmarker⟩ | ⟨⟨rule, hproperties, _⟩, hnames⟩)
    · have hobject := (hrule htype).isObject
      cases type <;> simp_all [Json.isObject, isText, isArray]
    · exact absurd hmarker ((hrule hvalue).not_isMarkerValue key)
    · exact ⟨List.mem_map_of_mem (mem_of_lookup hproperties), hnames⟩
  · rintro ⟨hproperties, hnames⟩
    cases hlookup : rules.lookup "properties" with
    | none => exact absurd hproperties (lookup_eq_none_iff_not_mem.mp hlookup)
    | some rule => exact .inr (.inr ⟨⟨rule, rfl, (hrule hlookup).isObject⟩, hnames⟩)

/-- Typed rules made into a document have no `type` of their own, as fields have. -/
theorem ofDocument_ne_ofFields {rules : List (String × Json)} (h : ∀ rule ∈ rules, IsTypedRule rule.2) :
    ofDocument (.obj rules) ≠ .ok (ofFields rules) := by
  intro hsame
  have hdocument : (ofFields rules).document =
      .obj (gatherMembers .schema [("type", .str "object"), ("properties", .obj rules)]) := gathered_obj .schema _
  rw [ofDocument_obj, Except.ok.injEq] at hsame
  have hmembers := Json.obj.inj ((congrArg Schema.document hsame).trans hdocument)
  have hne : "type" ≠ "required" := by decide
  have htype := lookup_document hne rules
  rw [hmembers, lookup_document hne, List.lookup_cons_self, Option.map_some, hoistAt_data (by decide)] at htype
  obtain ⟨rule, hrule, hvalue⟩ := Option.map_eq_some_iff.mp htype.symm
  rw [hoistAt_data (by decide)] at hvalue
  have hobject := (h _ (mem_of_lookup hrule)).isObject
  rw [hvalue] at hobject
  cases hobject

/-- A mapping of typed rules is read as fields just when its names are not those of a document without `type`. -/
theorem parse_typedRules {rules : List (String × Json)} (h : ∀ rule ∈ rules, IsTypedRule rule.2) :
    parse (.obj rules) = .ok (ofFields rules) ↔
      ¬ ("properties" ∈ rules.map (·.1) ∧ ∀ name ∈ rules.map (·.1), name ∈ objectKeywords) := by
  rw [← looksLikeDocument_typedRules h, parse]
  split
  · rename_i hdocument
    exact iff_of_false (ofDocument_ne_ofFields h) (not_not_intro hdocument)
  · rename_i hfields
    exact iff_of_true rfl hfields

/-- Fields named as markers and keywords are fields. -/
theorem parse_typedRules_reserved :
    let rule : Json := .obj [("type", .str "string")]
    let rules := [("type", rule), ("properties", rule), ("title", rule), ("definitions", rule), ("$ref", rule)]
    (∀ named ∈ rules, IsTypedRule named.2) ∧ parse (.obj rules) = .ok (ofFields rules) := by
  intro rule rules
  have htyped : ∀ named ∈ rules, IsTypedRule named.2 := by
    have hrule : IsTypedRule rule := ⟨.str "string", rfl, .inl rfl⟩
    simpa [rules] using hrule
  exact ⟨htyped, (parse_typedRules htyped).mpr (by decide)⟩

/-- A single field named `properties` is taken for a document. -/
theorem exists_fields_read_as_document : ∃ rules : List (String × Json), rules ≠ [] ∧
    (∀ rule ∈ rules, IsTypedRule rule.2) ∧ parse (.obj rules) ≠ .ok (ofFields rules) := by
  refine ⟨[("properties", .obj [("type", .str "string")])], by simp, ?_, by decide +kernel⟩
  simpa using ⟨.str "string", rfl, .inl rfl⟩

end Schema
end SchemaBound
