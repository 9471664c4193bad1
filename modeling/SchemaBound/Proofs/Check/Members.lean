import SchemaBound.Proofs.Check.Keywords

/-! What the check asks for the members of objects. Objects and `false` under `additionalProperties` decide together with
`properties` and `patternProperties`, which otherwise each decide for themselves. -/
namespace SchemaBound.Keyword
open Rule

variable {follow : Follow} {scope : Scope} {members : List (String × Json)} {w v : Json} {keyword? : Option Keyword}

theorem readMember_properties {rules : List (String × Json)} : readMember scope members "properties" (.obj rules) =
    if Part.coversMembers ((partsOf scope members).lookup "additionalProperties") then .ok none
    else (namedOf (scope.under "properties") rules).map fun named => some (.properties named) := by
  have hknows : scope.draft.knows "properties" := Draft.knows_of_mem (by decide) _
  have hpart : partOf scope "properties" (.obj rules) = .named (namedOf (scope.under "properties") rules) := by
    simp only [partOf]
  rw [readMember, hpart]
  simp only [readPart, hknows, Bool.not_true, Bool.false_eq_true, if_false]

theorem readMember_patternProperties {patterns : List (String × Json)} :
    readMember scope members "patternProperties" (.obj patterns) =
      if Part.coversMembers ((partsOf scope members).lookup "additionalProperties") then .ok none
      else (patternsOf (scope.under "patternProperties") patterns).map fun list => some (.patternProperties list) := by
  have hknows : scope.draft.knows "patternProperties" := Draft.knows_of_mem (by decide) _
  have hpart : partOf scope "patternProperties" (.obj patterns) =
      .patterns (patternsOf (scope.under "patternProperties") patterns) := by
    simp only [partOf]
  rw [readMember, hpart]
  simp only [readPart, hknows, Bool.not_true, Bool.false_eq_true, if_false]

theorem readMember_additionalProperties : readMember scope members "additionalProperties" w = (do
    let patterns ← Part.patternRules ((partsOf scope members).lookup "patternProperties")
    if w = .bool true then return none
    let rules ← Part.namedRules ((partsOf scope members).lookup "properties")
    if w ≠ .bool false then
      return some (.members rules patterns (some (← read (scope.under "additionalProperties") w)))
    else if (members.lookup "properties").isNone ∧ (members.lookup "patternProperties").isNone then
      return some .noMembers
    else return some (.members rules patterns none)) := by
  have hknows : scope.draft.knows "additionalProperties" := Draft.knows_of_mem (by decide) _
  rw [readMember, partOf_rule scope (by decide)]
  simp only [readPart, hknows, Bool.not_true, Bool.false_eq_true, if_false, lookup_partsOf, Option.isNone_map]

/-- Objects and `false` under `additionalProperties` decide all members, `true` leaves them to the other keywords. -/
theorem coversMembers_iff (hw : members.lookup "additionalProperties" = some w) :
    Part.coversMembers ((partsOf scope members).lookup "additionalProperties") ↔ w.isObject ∨ w = .bool false := by
  rw [lookup_partsOf, hw, Option.map_some, partOf_rule scope (by decide)]
  simp [Part.coversMembers]

theorem covers_of_additionalProperties (hread : readMember scope members "additionalProperties" w = .ok keyword?)
    (hw : w ≠ .bool true) : w.isObject ∨ w = .bool false := by
  rw [readMember_additionalProperties] at hread
  obtain ⟨patterns, _, hread⟩ := Success.bind_eq_ok.mp hread
  rw [if_neg hw] at hread
  obtain ⟨named, _, hread⟩ := Success.bind_eq_ok.mp hread
  cases w with
  | obj _ => exact .inl rfl
  | bool b => exact .inr (by cases b <;> simp_all)
  | _ =>
    rw [if_pos (by rintro ⟨⟩)] at hread
    obtain ⟨rule, hrule, _⟩ := Success.bind_eq_ok.mp hread
    cases hrule

/-- The keyword holds an object with the members, or is missing and there are none. -/
def Lists (members : List (String × Json)) (key : String) (list : List (String × Json)) : Prop :=
  members.lookup key = some (.obj list) ∨ members.lookup key = none ∧ list = []

theorem Lists.eq_of_lookup {key : String} {list list' : List (String × Json)} (h : Lists members key list)
    (hlookup : members.lookup key = some (.obj list')) : list' = list := by
  rcases h with hlist | ⟨hnone, _⟩
  · exact Json.obj.inj (Option.some.inj (hlookup.symm.trans hlist))
  · cases hlookup.symm.trans hnone

theorem Lists.lookup_of_ne_nil {key : String} {list : List (String × Json)} (h : Lists members key list)
    (hne : list ≠ []) : members.lookup key = some (.obj list) :=
  h.resolve_right fun hnone => hne hnone.2

section Rules

variable (h : follow.IsSeatless)
include h

theorem exists_named {named : List (String × Rule)}
    (hread : Part.namedRules ((partsOf scope members).lookup "properties") = .ok named) :
    ∃ rules, List.Forall₂ (StandsNamed follow scope) rules named ∧ Lists members "properties" rules := by
  rw [lookup_partsOf] at hread
  cases hrules : members.lookup "properties" with
  | none =>
    rw [hrules] at hread
    obtain rfl := Except.ok.inj hread
    exact ⟨[], .nil, .inr ⟨hrules, rfl⟩⟩
  | some rules =>
    rw [hrules, Option.map_some] at hread
    cases rules with
    | obj rules =>
      have hpart : partOf scope "properties" (.obj rules) = .named (namedOf (scope.under "properties") rules) := by
        simp only [partOf]
      rw [hpart] at hread
      exact ⟨rules, stands_of_namedOf h hread rfl rfl, .inl hrules⟩
    | _ => cases hread

theorem exists_patterns {patterns : List PatternRule}
    (hread : Part.patternRules ((partsOf scope members).lookup "patternProperties") = .ok patterns) :
    ∃ sources, List.Forall₂ (PatternRule.Stands follow scope) sources patterns ∧
      Lists members "patternProperties" sources := by
  rw [lookup_partsOf] at hread
  cases hsources : members.lookup "patternProperties" with
  | none =>
    rw [hsources] at hread
    obtain rfl := Except.ok.inj hread
    exact ⟨[], .nil, .inr ⟨hsources, rfl⟩⟩
  | some sources =>
    rw [hsources, Option.map_some] at hread
    cases sources with
    | obj sources =>
      have hpart : partOf scope "patternProperties" (.obj sources) =
          .patterns (patternsOf (scope.under "patternProperties") sources) := by
        simp only [partOf]
      rw [hpart] at hread
      exact ⟨sources, stands_of_patternsOf h hread rfl rfl, .inl hsources⟩
    | _ => cases hread

/-- What `properties` ask for if nothing else does. -/
theorem properties_iff (hcovers : ¬ Part.coversMembers ((partsOf scope members).lookup "additionalProperties"))
    (hread : readMember scope members "properties" w = .ok keyword?) :
    ∃ rules, w = .obj rules ∧ (∀ member ∈ rules, Reads scope member.2) ∧
      ∀ v, IsMet follow scope members "properties" w v ↔
        ∀ data, v = .obj data → ∀ name node, (name, node) ∈ rules → ∀ x, data.lookup name = some x →
          Accepts follow scope node x := by
  have hknows : scope.draft.knows "properties" := Draft.knows_of_mem (by decide) _
  cases w with
  | obj rules =>
    obtain ⟨named, hnamed, rfl⟩ :=
      Success.map_eq_ok.mp ((readMember_properties.trans (if_neg hcovers)).symm.trans hread)
    have hstands : List.Forall₂ (StandsNamed follow scope) rules named := stands_of_namedOf h hnamed rfl rfl
    refine ⟨rules, rfl, reads_of_standsNamed hstands, fun v => (isMet_some hread).trans ?_⟩
    cases v with
    | obj data =>
      rw [findings, propertyFindings_eq_nil_iff hstands]
      simp only [Json.obj.injEq, forall_eq']
    | _ => simp [findings, ownFindings]
  | _ => simp [readMember, partOf, holdsRule, readPart, hknows, readValue, hcovers] at hread

/-- What `patternProperties` ask for if nothing else does. -/
theorem patternProperties_iff (hcovers : ¬ Part.coversMembers ((partsOf scope members).lookup "additionalProperties"))
    (hread : readMember scope members "patternProperties" w = .ok keyword?) :
    ∃ sources, w = .obj sources ∧ (∀ member ∈ sources, Reads scope member.2) ∧
      ∀ v, IsMet follow scope members "patternProperties" w v ↔
        ∀ data, v = .obj data → ∀ source node, (source, node) ∈ sources → ∀ name x, (name, x) ∈ data →
          Pattern.Occurs source name → Accepts follow scope node x := by
  have hknows : scope.draft.knows "patternProperties" := Draft.knows_of_mem (by decide) _
  cases w with
  | obj sources =>
    obtain ⟨patterns, hpatterns, rfl⟩ :=
      Success.map_eq_ok.mp ((readMember_patternProperties.trans (if_neg hcovers)).symm.trans hread)
    have hstands : List.Forall₂ (PatternRule.Stands follow scope) sources patterns :=
      stands_of_patternsOf h hpatterns rfl rfl
    refine ⟨sources, rfl, reads_of_standsMatched hstands, fun v => (isMet_some hread).trans ?_⟩
    cases v with
    | obj data =>
      rw [findings, patternFindings_eq_nil_iff hstands]
      simp only [Json.obj.injEq, forall_eq']
    | _ => simp [findings, ownFindings]
  | _ => simp [readMember, partOf, holdsRule, readPart, hknows, readValue, hcovers] at hread

theorem exists_properties (hcovers : ¬ Part.coversMembers ((partsOf scope members).lookup "additionalProperties"))
    (hreads : ∀ key w, members.lookup key = some w → ∃ keyword?, readMember scope members key w = .ok keyword?) :
    ∃ rules, Lists members "properties" rules ∧ (∀ member ∈ rules, Reads scope member.2) ∧
      ∀ v, (∀ w, members.lookup "properties" = some w → IsMet follow scope members "properties" w v) ↔
        ∀ data, v = .obj data → ∀ name node, (name, node) ∈ rules → ∀ x, data.lookup name = some x →
          Accepts follow scope node x := by
  cases hw : members.lookup "properties" with
  | none => exact ⟨[], .inr ⟨hw, rfl⟩, by simp, by simp⟩
  | some w =>
    obtain ⟨keyword?, hread⟩ := hreads _ _ hw
    obtain ⟨rules, rfl, hrules, hmet⟩ := properties_iff h hcovers hread
    exact ⟨rules, .inl hw, hrules, fun v => by simp only [Option.some.injEq, forall_eq', hmet v]⟩

theorem exists_patternProperties
    (hcovers : ¬ Part.coversMembers ((partsOf scope members).lookup "additionalProperties"))
    (hreads : ∀ key w, members.lookup key = some w → ∃ keyword?, readMember scope members key w = .ok keyword?) :
    ∃ sources, Lists members "patternProperties" sources ∧ (∀ member ∈ sources, Reads scope member.2) ∧
      ∀ v, (∀ w, members.lookup "patternProperties" = some w → IsMet follow scope members "patternProperties" w v) ↔
        ∀ data, v = .obj data → ∀ source node, (source, node) ∈ sources → ∀ name x, (name, x) ∈ data →
          Pattern.Occurs source name → Accepts follow scope node x := by
  cases hw : members.lookup "patternProperties" with
  | none => exact ⟨[], .inr ⟨hw, rfl⟩, by simp, by simp⟩
  | some w =>
    obtain ⟨keyword?, hread⟩ := hreads _ _ hw
    obtain ⟨sources, rfl, hsources, hmet⟩ := patternProperties_iff h hcovers hread
    exact ⟨sources, .inl hw, hsources, fun v => by simp only [Option.some.injEq, forall_eq', hmet v]⟩

omit h in
/-- Where no members are declared and others are forbidden, no member is accepted. -/
theorem isMet_noMembers_iff (hread : readMember scope members "additionalProperties" w = .ok (some .noMembers))
    (v : Json) :
    IsMet follow scope members "additionalProperties" w v ↔
      ∀ data, v = .obj data → ∀ name x, (name, x) ∈ data →
        AcceptsMember follow scope [] [] (Accepts follow scope (.bool false)) name x := by
  refine (isMet_some hread).trans ?_
  rw [findings_of_not_hasRules rfl]
  cases v with
  | obj data =>
    cases data with
    | nil => simp [ownFindings]
    | cons member rest =>
      refine iff_of_false (by simp [ownFindings]) fun hall => ?_
      have hmember := (hall _ rfl member.1 member.2 List.mem_cons_self).further (by simp)
      exact Bool.false_ne_true (accepts_bool.mp hmember)
  | _ => simp [ownFindings]

omit h in
/-- What is asked of members by the rules that decide all of them. -/
theorem isMet_members_of_stands {named : List (String × Rule)} {patterns : List PatternRule} {others : Option Rule}
    {rules sources : List (String × Json)}
    (hread : readMember scope members "additionalProperties" w = .ok (some (.members named patterns others)))
    (hrules : List.Forall₂ (StandsNamed follow scope) rules named)
    (hsources : List.Forall₂ (PatternRule.Stands follow scope) sources patterns)
    (hothers : ∀ x, (∃ rule ∈ others, rule.findings follow (some "additionalProperties") x = []) ↔
      Accepts follow scope w x) (v : Json) :
    IsMet follow scope members "additionalProperties" w v ↔
      ∀ data, v = .obj data → ∀ name x, (name, x) ∈ data →
        AcceptsMember follow scope rules sources (Accepts follow scope w) name x := by
  refine (isMet_some hread).trans ?_
  cases v with
  | obj data =>
    rw [membersFindings_eq_nil_iff hrules hsources others, funext fun x => propext (hothers x)]
    simp only [Json.obj.injEq, forall_eq']
  | _ => simp [findings, ownFindings]

/-- What `additionalProperties` ask for where they decide all members. -/
theorem additionalProperties_iff (hw : w.isObject ∨ w = .bool false)
    (hread : readMember scope members "additionalProperties" w = .ok keyword?) :
    Reads scope w ∧ ∃ rules sources, Lists members "properties" rules ∧ Lists members "patternProperties" sources ∧
      (∀ member ∈ rules, Reads scope member.2) ∧ (∀ member ∈ sources, Reads scope member.2) ∧
      ∀ v, IsMet follow scope members "additionalProperties" w v ↔
        ∀ data, v = .obj data → ∀ name x, (name, x) ∈ data →
          AcceptsMember follow scope rules sources (Accepts follow scope w) name x := by
  have htrue : w ≠ .bool true := by
    rintro rfl
    simp [Json.isObject] at hw
  have hmember := hread
  rw [readMember_additionalProperties] at hmember
  obtain ⟨patterns, hpatterns, hmember⟩ := Success.bind_eq_ok.mp hmember
  rw [if_neg htrue] at hmember
  obtain ⟨named, hnamed, hmember⟩ := Success.bind_eq_ok.mp hmember
  obtain ⟨rules, hrules, hproperties⟩ := exists_named h hnamed
  obtain ⟨sources, hsources, hpatternProperties⟩ := exists_patterns h hpatterns
  have hreads := And.intro (reads_of_standsNamed hrules) (reads_of_standsMatched hsources)
  rcases hw with hobject | rfl
  · rw [if_pos (by rintro rfl; cases hobject)] at hmember
    obtain ⟨rule, hrule, hmember⟩ := Success.bind_eq_ok.mp hmember
    obtain rfl := Success.pure_eq_ok.mp hmember
    have hstands : Stands follow scope w rule := stands_of_read h hrule rfl rfl
    refine ⟨hstands.reads, rules, sources, hproperties, hpatternProperties, hreads.1, hreads.2, ?_⟩
    exact isMet_members_of_stands hread hrules hsources fun x => by simp [hstands.findings_iff]
  · refine ⟨reads_bool false, rules, sources, hproperties, hpatternProperties, hreads.1, hreads.2, ?_⟩
    rw [if_neg (not_not_intro rfl)] at hmember
    split at hmember
    · rename_i hneither
      rw [Option.isNone_iff_eq_none, Option.isNone_iff_eq_none] at hneither
      obtain rfl : rules = [] := (hproperties.resolve_left (by simp [hneither.1])).2
      obtain rfl : sources = [] := (hpatternProperties.resolve_left (by simp [hneither.2])).2
      exact isMet_noMembers_iff (hread.trans hmember.symm)
    · obtain rfl := Success.pure_eq_ok.mp hmember
      exact isMet_members_of_stands hread hrules hsources fun x => by simp [accepts_bool]

/-- What is asked of the members of objects, however the keywords share it out. -/
structure Shares (follow : Follow) (scope : Scope) (members rules sources : List (String × Json)) : Prop where
  properties : Lists members "properties" rules
  patternProperties : Lists members "patternProperties" sources
  reads_rules : ∀ member ∈ rules, Reads scope member.2
  reads_sources : ∀ member ∈ sources, Reads scope member.2
  reads_further : ∀ node, members.lookup "additionalProperties" = some node → Reads scope node
  isMet_iff : ∀ v, v.hasDistinctNames → (rules.map (·.1)).Nodup →
    ((∀ key ∈ ["properties", "patternProperties", "additionalProperties"], ∀ w, members.lookup key = some w →
        IsMet follow scope members key w v) ↔
      ∀ data, v = .obj data → ∀ name x, (name, x) ∈ data → AcceptsMember follow scope rules sources
        (fun x => ∀ node, members.lookup "additionalProperties" = some node → Accepts follow scope node x) name x)

variable (hreads : ∀ key w, members.lookup key = some w → ∃ keyword?, readMember scope members key w = .ok keyword?)
include hreads

theorem exists_shares_of_covers (hcovers : Part.coversMembers ((partsOf scope members).lookup "additionalProperties")) :
    ∃ rules sources, Shares follow scope members rules sources := by
  obtain ⟨w, hw⟩ : ∃ w, members.lookup "additionalProperties" = some w := by
    rw [← Option.isSome_iff_exists]
    rw [lookup_partsOf] at hcovers
    cases hnone : members.lookup "additionalProperties" with
    | none => simp [hnone, Part.coversMembers] at hcovers
    | some _ => rfl
  obtain ⟨keyword?, hread⟩ := hreads _ _ hw
  obtain ⟨hother, rules, sources, hproperties, hpatterns, hrules, hsources, hmet⟩ :=
    additionalProperties_iff h ((coversMembers_iff hw).mp hcovers) hread
  refine ⟨rules, sources, hproperties, hpatterns, hrules, hsources, fun node hnode => ?_, fun v _ _ => ?_⟩
  · obtain rfl := Option.some.inj (hw.symm.trans hnode)
    exact hother
  · have hsame : (fun x => ∀ node, members.lookup "additionalProperties" = some node → Accepts follow scope node x) =
        Accepts follow scope w := by
      simp [hw]
    rw [hsame, ← hmet v]
    refine ⟨fun hall => hall "additionalProperties" (by simp) w hw, fun hmet key hkey node hnode => ?_⟩
    simp only [List.mem_cons, List.not_mem_nil, or_false] at hkey
    rcases hkey with rfl | rfl | rfl
    · obtain rfl : node = .obj rules := by simpa [Lists, hnode] using hproperties
      exact isMet_of_eq_none (readMember_properties.trans (if_pos hcovers))
    · obtain rfl : node = .obj sources := by simpa [Lists, hnode] using hpatterns
      exact isMet_of_eq_none (readMember_patternProperties.trans (if_pos hcovers))
    · obtain rfl := Option.some.inj (hw.symm.trans hnode)
      exact hmet

theorem exists_shares_of_not_covers
    (hcovers : ¬ Part.coversMembers ((partsOf scope members).lookup "additionalProperties")) :
    ∃ rules sources, Shares follow scope members rules sources := by
  have htrue (node : Json) (hnode : members.lookup "additionalProperties" = some node) : node = .bool true := by
    obtain ⟨keyword?, hread⟩ := hreads _ _ hnode
    by_contra hne
    exact hcovers ((coversMembers_iff hnode).mpr (covers_of_additionalProperties hread hne))
  have hfurther (v : Json) (w : Json) (hw : members.lookup "additionalProperties" = some w) :
      IsMet follow scope members "additionalProperties" w v := by
    obtain rfl := htrue w hw
    obtain ⟨keyword?, hread⟩ := hreads _ _ hw
    refine isMet_of_eq_none (hread.trans ?_)
    rw [readMember_additionalProperties] at hread
    obtain ⟨patterns, _, hread⟩ := Success.bind_eq_ok.mp hread
    rw [if_pos rfl] at hread
    rw [← Success.pure_eq_ok.mp hread]
  obtain ⟨rules, hproperties, hrules, hmetNamed⟩ := exists_properties h hcovers hreads
  obtain ⟨sources, hpatterns, hsources, hmetMatched⟩ := exists_patternProperties h hcovers hreads
  refine ⟨rules, sources, hproperties, hpatterns, hrules, hsources, fun node hnode => ?_, fun v hv hnodup => ?_⟩
  · rw [htrue node hnode]
    exact reads_bool true
  simp only [List.forall_mem_cons, List.not_mem_nil, false_implies, implies_true, and_true, hmetNamed, hmetMatched]
  constructor
  · rintro ⟨hnamed, hmatched, _⟩ data rfl name x hx
    refine ⟨fun node hnode => ?_, fun source node hnode hoccurs => ?_, fun _ node hnode => ?_⟩
    · exact hnamed data rfl name node (Json.mem_of_lookup hnode) x (Json.lookup_of_mem (Json.nodup_names hv) hx)
    · exact hmatched data rfl source node hnode name x hx hoccurs
    · rw [htrue node hnode]
      exact accepts_bool.mpr rfl
  · intro hall
    refine ⟨?_, ?_, hfurther v⟩
    · rintro data rfl name node hnode x hx
      exact (hall data rfl name x (Json.mem_of_lookup hx)).declared node (Json.lookup_of_mem hnodup hnode)
    · rintro data rfl source node hnode name x hx hoccurs
      exact (hall data rfl name x hx).matched source node hnode hoccurs

theorem exists_shares : ∃ rules sources, Shares follow scope members rules sources := by
  by_cases hcovers : Part.coversMembers ((partsOf scope members).lookup "additionalProperties")
  · exact exists_shares_of_covers h hreads hcovers
  · exact exists_shares_of_not_covers h hreads hcovers

end Rules
end SchemaBound.Keyword
