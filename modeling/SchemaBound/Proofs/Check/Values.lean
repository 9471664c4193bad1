import SchemaBound.Coercion
import SchemaBound.Proofs.Check.Keywords

/-! What keywords ask that hold no schemas. It depends on the draft, and on the other keywords of this kind. -/
namespace SchemaBound

/-- Keywords that hold schemas are those of a list. -/
theorem Nesting.ofKeyword_eq_data_iff {key : String} : ofKeyword key = .data ↔ key ∉ ["properties", "patternProperties",
    "definitions", "$defs", "items", "allOf", "anyOf", "oneOf", "prefixItems", "additionalProperties",
    "additionalItems", "contains", "not", "if", "then", "else", "propertyNames", "dependencies"] := by
  unfold ofKeyword
  simp only [List.mem_cons, List.not_mem_nil, or_false, not_or]
  split_ifs with hname hlist hone hdependencies <;> simp_all <;> tauto

namespace Keyword

variable {follow : Follow} {scope : Scope} {members : List (String × Json)} {key : String} {w v : Json}

private theorem hasRules_of_readNumber {f : Number → Keyword} (hf : ∀ n, (f n).hasRules = false) {keyword : Keyword}
    (h : readNumber scope w f = .ok (some keyword)) : keyword.hasRules = false := by
  unfold readNumber at h
  split at h
  · obtain rfl := Option.some.inj (Except.ok.inj h)
    exact hf _
  · cases h

private theorem hasRules_of_readText {f : String → Option Keyword} (hf : ∀ s, ∀ keyword ∈ f s, keyword.hasRules = false)
    {keyword : Keyword} (h : readText scope w f = .ok (some keyword)) : keyword.hasRules = false := by
  unfold readText at h
  split at h
  · exact hf _ _ (Except.ok.inj h)
  · cases h

private theorem hasRules_of_readType {keyword : Keyword} (h : readType scope w = .ok keyword) :
    keyword.hasRules = false := by
  unfold readType at h
  dsimp only at h
  split at h
  · split at h <;> cases h
    rfl
  · split at h <;> cases h
    rfl
  · obtain ⟨_, _, rfl⟩ := Success.map_eq_ok.mp h
    rfl
  · cases h

private theorem hasRules_of_readContent {parts : List (String × Part)} {keyword : Keyword}
    (h : readContent scope parts w = .ok (some keyword)) : keyword.hasRules = false := by
  unfold readContent at h
  split at h
  · split at h
    · cases h
      rfl
    · refine hasRules_of_readText (fun s keyword hkeyword => ?_) h
      split at hkeyword <;> cases hkeyword
      rfl
    · cases h
  · exact hasRules_of_readText (fun _ _ hkeyword => by cases hkeyword) h

/-- Values that hold no schemas are read as keywords that look at the value alone. -/
theorem hasRules_of_readValue {parts : List (String × Part)} {keyword : Keyword}
    (h : readValue scope parts key w = .ok (some keyword)) : keyword.hasRules = false := by
  have hsize {measure : Measure} {side : Bound}
      (h : ((readSize (scope.under key) w).map fun n => some (Keyword.size measure side n)) = .ok (some keyword)) :
      keyword.hasRules = false := by
    obtain ⟨_, _, hkeyword⟩ := Success.map_eq_ok.mp h
    obtain rfl := Option.some.inj hkeyword
    rfl
  unfold readValue at h
  dsimp only at h
  split at h
  · obtain ⟨found, hfound, hkeyword⟩ := Success.map_eq_ok.mp h
    obtain rfl := Option.some.inj hkeyword
    exact hasRules_of_readType hfound
  · split at h <;> cases h
    rfl
  · cases h
    rfl
  · exact hasRules_of_readNumber (fun _ => rfl) h
  · exact hasRules_of_readNumber (fun _ => rfl) h
  · exact hasRules_of_readNumber (fun _ => rfl) h
  · exact hasRules_of_readNumber (fun _ => rfl) h
  · exact hasRules_of_readNumber (fun _ => rfl) h
  · exact hsize h
  · exact hsize h
  · exact hsize h
  · exact hsize h
  · exact hsize h
  · exact hsize h
  · split at h
    · have hkeyword := Except.ok.inj h
      split at hkeyword <;> cases hkeyword
      rfl
    · cases h
  · split at h
    · obtain ⟨_, _, hkeyword⟩ := Success.map_eq_ok.mp h
      obtain rfl := Option.some.inj hkeyword
      rfl
    · cases h
  · split at h
    · split at h <;> cases h
      rfl
    · cases h
  · refine hasRules_of_readText (fun s found hfound => ?_) h
    obtain ⟨_, _, rfl⟩ := Option.map_eq_some_iff.mp hfound
    rfl
  · exact hasRules_of_readContent h
  · split at h
    · cases h
    · refine hasRules_of_readText (fun s found hfound => ?_) h
      split at hfound <;> cases hfound
      rfl
  · split at h <;> cases h
  · split at h <;> cases h
  · cases h
  · cases h
  · cases h
  · cases h
  · cases h

theorem partOf_value (scope : Scope) (hkey : Nesting.ofKeyword key = .data) (w : Json) :
    Rule.partOf scope key w = .value w := by
  have hkey := Nesting.ofKeyword_eq_data_iff.mp hkey
  simp only [List.mem_cons, List.not_mem_nil, or_false, not_or] at hkey
  have hrule : Rule.holdsRule key = false := by simp [Rule.holdsRule, hkey]
  cases w <;> simp [Rule.partOf, hrule, hkey]

theorem readMember_value (hkey : Nesting.ofKeyword key = .data) : readMember scope members key w =
    if !scope.draft.knows key then .ok none else readValue scope (Rule.partsOf scope members) key w :=
  readMember_of_value (partOf_value scope hkey w)

/-- What such keywords ask depends on the draft, and on the others of them. -/
theorem isMet_congr {follow' : Follow} {scope' : Scope} {members' : List (String × Json)}
    (hdraft : scope.draft = scope'.draft) (hkey : Nesting.ofKeyword key = .data)
    (hmembers : ∀ flag, Nesting.ofKeyword flag = .data → flag ≠ "required" →
      members.lookup flag = members'.lookup flag) :
    IsMet follow scope members key w v ↔ IsMet follow' scope' members' key w v := by
  have hshares : SharesValues (Rule.partsOf scope members) (Rule.partsOf scope' members') := by
    have hflag {flag : String} (hflag : flag ∈ ["exclusiveMinimum", "exclusiveMaximum", "contentEncoding",
        "contentMediaType"]) :
        (Rule.partsOf scope members).lookup flag = (Rule.partsOf scope' members').lookup flag := by
      have hdata : Nesting.ofKeyword flag = .data ∧ flag ≠ "required" := by
        simp only [List.mem_cons, List.not_mem_nil, or_false] at hflag
        rcases hflag with rfl | rfl | rfl | rfl <;> decide
      rw [Rule.lookup_partsOf, Rule.lookup_partsOf, hmembers flag hdata.1 hdata.2]
      exact congrArg (Option.map · _) (funext fun w => (partOf_value _ hdata.1 w).trans (partOf_value _ hdata.1 w).symm)
    exact ⟨fun flag hmem v => by rw [hflag hmem], fun flag hmem => by rw [hflag (List.mem_of_mem_drop (i := 2) hmem)]⟩
  have hread (keyword : Keyword) : readMember scope members key w = .ok (some keyword) ↔
      readMember scope' members' key w = .ok (some keyword) := by
    rw [readMember_value hkey, readMember_value hkey, hdraft]
    split
    · rfl
    · rw [← Success.toOption_eq_some, ← Success.toOption_eq_some,
        readValue_toOption scope scope' hdraft hshares key (fun hne => absurd hkey hne)]
  have hfindings {keyword : Keyword} (hkeyword : readMember scope members key w = .ok (some keyword)) :
      keyword.findings follow v = keyword.findings follow' v := by
    rw [readMember_value hkey] at hkeyword
    split at hkeyword
    · cases hkeyword
    · rw [findings_of_not_hasRules (hasRules_of_readValue hkeyword), findings_of_not_hasRules
        (hasRules_of_readValue hkeyword)]
  refine forall_congr' fun keyword => ?_
  rw [← hread keyword]
  exact forall_congr' fun hkeyword => by rw [hfindings hkeyword]

/-- The types of a list are those that words in it name. -/
theorem exists_of_readTypes {scope : Scope} {list : List Json} {names : List TypeName}
    (h : readTypes scope list = .ok names) {name : TypeName} (hname : name ∈ names) :
    ∃ word ∈ list.filterMap Json.text?, TypeName.ofWord? word = some name := by
  induction list generalizing names with
  | nil =>
    obtain rfl := Except.ok.inj h
    cases hname
  | cons first rest ih =>
    cases first with
    | str word =>
      rw [readTypes] at h
      split at h
      · rename_i found hfound
        obtain ⟨others, hothers, rfl⟩ := Success.map_eq_ok.mp h
        have hwords : (Json.str word :: rest).filterMap Json.text? = word :: rest.filterMap Json.text? := rfl
        rw [hwords]
        rcases List.mem_cons.mp hname with rfl | hmem
        · exact ⟨word, List.mem_cons_self, hfound⟩
        · obtain ⟨other, hother, hofWord⟩ := ih hothers hmem
          exact ⟨other, List.mem_cons_of_mem _ hother, hofWord⟩
      · cases h
    | _ => cases h

/-- A value that meets the `type` of a node is of one of the types that the node declares. -/
theorem exists_of_readType {scope : Scope} {names : Json} {keyword : Keyword} (h : readType scope names = .ok keyword)
    {node : Json} (hnames : node.get? "type" = some names) (hnone : keyword.findings follow v = []) :
    ∃ word ∈ Coercion.declaredTypes node, ∃ name, TypeName.ofWord? word = some name ∧ name.admits scope.draft v := by
  have hsingle {name : TypeName} (hnone : (Keyword.type scope.draft name).findings follow v = []) :
      name.admits scope.draft v := by
    rw [findings_of_not_hasRules rfl] at hnone
    by_contra hadmits
    simp [ownFindings, hadmits] at hnone
  have hlist {names : List TypeName} (hnone : (Keyword.types scope.draft names).findings follow v = []) :
      ∃ name ∈ names, name.admits scope.draft v := by
    rw [findings_of_not_hasRules rfl] at hnone
    rw [← List.any_eq_true]
    by_contra hadmits
    simp only [ownFindings, Bool.eq_false_iff.mpr hadmits] at hnone
    cases hnone
  unfold Coercion.declaredTypes
  rw [hnames]
  unfold readType at h
  dsimp only at h
  split at h
  · rename_i word
    split at h
    · rename_i name hname
      obtain rfl := Except.ok.inj h
      exact ⟨word, List.mem_singleton.mpr rfl, name, hname, hsingle hnone⟩
    · cases h
  · rename_i word
    split at h
    · rename_i name hname
      obtain rfl := Except.ok.inj h
      exact ⟨word, List.mem_singleton.mpr rfl, name, hname, hsingle hnone⟩
    · cases h
  · rename_i list _
    obtain ⟨found, hfound, rfl⟩ := Success.map_eq_ok.mp h
    obtain ⟨name, hname, hadmits⟩ := hlist hnone
    have hmem : name ∈ found := by simpa using (List.mem_filter.mp hname).2
    obtain ⟨word, hword, hofWord⟩ := exists_of_readTypes hfound hmem
    exact ⟨word, hword, name, hofWord, hadmits⟩
  · cases h

end Keyword
end SchemaBound
