import Mathlib.Data.List.Forall2
import Mathlib.Tactic.MkIffOfInductiveProp
import SchemaBound.Check.Evaluation
import SchemaBound.Proofs.Check.Place
import SchemaBound.Proofs.Success

/-! Rules and the schemas that they are read from: a schema accepts what its rule finds nothing wrong with, however
references are followed. -/
namespace SchemaBound

/-- Whether a reference admits a value does not depend on the name of the place that holds the reference. -/
def Follow.IsSeatless (follow : Follow) : Prop :=
  ∀ url draft seat seat' v, follow url draft seat v = [] ↔ follow url draft seat' v = []

/-- The schema can be read in the scope, and its rule finds nothing wrong with the value. -/
def Rule.Accepts (follow : Follow) (scope : Scope) (node v : Json) : Prop :=
  ∃ rule, Rule.read scope node = .ok rule ∧ rule.findings follow none v = []

/-- The schema is read as the rule, which finds nothing wrong with what the schema accepts. -/
structure Rule.Stands (follow : Follow) (scope : Scope) (node : Json) (rule : Rule) : Prop where
  read_eq : Rule.read scope node = .ok rule
  findings_iff : ∀ seat x, rule.findings follow seat x = [] ↔ Rule.Accepts follow scope node x

/-- A rule and the schema it stands for, under one name. -/
def Rule.StandsNamed (follow : Follow) (scope : Scope) (member : String × Json) (named : String × Rule) : Prop :=
  named.1 = member.1 ∧ Rule.Stands follow scope member.2 named.2

/-- A rule and the schema it stands for, under one pattern. -/
structure PatternRule.Stands (follow : Follow) (scope : Scope) (member : String × Json) (pattern : PatternRule) :
    Prop where
  parse_eq : Pattern.parse? member.1 = some pattern.pattern
  rule : Rule.Stands follow scope member.2 pattern.rule

/-- What the presence of a member asks as a list of names, or as a schema. -/
inductive Dependency.Stands (follow : Follow) (scope : Scope) : Json → Dependency → Prop
  | names {list : List Json} {names : List String} :
      list = names.map .str → Dependency.Stands follow scope (.arr list) (.names names)
  | rule {node : Json} {rule : Rule} : node.isArray = false → Rule.Stands follow scope node rule →
      Dependency.Stands follow scope node (.rule rule)

/-- What the presence of a member asks, under its name. -/
def Dependency.StandsNamed (follow : Follow) (scope : Scope) (member : String × Json) (named : String × Dependency) :
    Prop :=
  named.1 = member.1 ∧ named.2.Stands follow scope member.2

variable {follow : Follow} {scope : Scope}

theorem Rule.findings_seat (h : follow.IsSeatless) (rule : Rule) (seat seat' : Option String) (v : Json) :
    rule.findings follow seat v = [] ↔ rule.findings follow seat' v = [] := by
  cases rule with
  | anything => simp only [findings]
  | nothing => simp only [findings, reduceCtorEq]
  | reference url draft =>
    simp only [findings]
    exact h url draft seat seat' v
  | keywords list => simp only [findings]

namespace Rule

/-- A rule stands for the schema that it is read from, in whatever place. -/
theorem stands_of_read (h : follow.IsSeatless) {place : Scope} {node : Json} {rule : Rule}
    (hread : read place node = .ok rule) (hbase : place.base = scope.base) (hdraft : place.draft = scope.draft) :
    Stands follow scope node rule := by
  have hscope : read scope node = .ok rule := (read_eq_ok_iff hbase hdraft).mp hread
  refine ⟨hscope, fun seat x => ?_⟩
  rw [rule.findings_seat h seat none x]
  constructor
  · exact fun hnone => ⟨rule, hscope, hnone⟩
  · rintro ⟨rule', hread', hnone⟩
    obtain rfl := Except.ok.inj (hscope.symm.trans hread')
    exact hnone

variable (h : follow.IsSeatless) {place : Scope}
include h

theorem stands_of_namedOf {members : List (String × Json)} {named : List (String × Rule)}
    (hread : namedOf place members = .ok named) (hbase : place.base = scope.base) (hdraft : place.draft = scope.draft) :
    List.Forall₂ (StandsNamed follow scope) members named := by
  induction members generalizing named with
  | nil =>
    rw [namedOf] at hread
    obtain rfl := Except.ok.inj hread
    exact .nil
  | cons member rest ih =>
    obtain ⟨name, node⟩ := member
    rw [namedOf] at hread
    obtain ⟨rule, hrule, hread⟩ := Success.bind_eq_ok.mp hread
    obtain ⟨others, hothers, hread⟩ := Success.bind_eq_ok.mp hread
    obtain rfl := Success.pure_eq_ok.mp hread
    exact .cons ⟨rfl, stands_of_read h hrule hbase hdraft⟩ (ih hothers)

theorem stands_of_patternsOf {members : List (String × Json)} {patterns : List PatternRule}
    (hread : patternsOf place members = .ok patterns) (hbase : place.base = scope.base)
    (hdraft : place.draft = scope.draft) : List.Forall₂ (PatternRule.Stands follow scope) members patterns := by
  induction members generalizing patterns with
  | nil =>
    rw [patternsOf] at hread
    obtain rfl := Except.ok.inj hread
    exact .nil
  | cons member rest ih =>
    obtain ⟨source, node⟩ := member
    rw [patternsOf] at hread
    split at hread
    · rename_i pattern hpattern
      obtain ⟨rule, hrule, hread⟩ := Success.bind_eq_ok.mp hread
      obtain ⟨others, hothers, hread⟩ := Success.bind_eq_ok.mp hread
      obtain rfl := Success.pure_eq_ok.mp hread
      exact .cons ⟨hpattern, stands_of_read h hrule hbase hdraft⟩ (ih hothers)
    · cases hread

theorem stands_of_rulesOf {index : Nat} {nodes : List Json} {rules : List Rule}
    (hread : rulesOf place index nodes = .ok rules) (hbase : place.base = scope.base)
    (hdraft : place.draft = scope.draft) : List.Forall₂ (Stands follow scope) nodes rules := by
  induction nodes generalizing index rules with
  | nil =>
    rw [rulesOf] at hread
    obtain rfl := Except.ok.inj hread
    exact .nil
  | cons node rest ih =>
    rw [rulesOf] at hread
    obtain ⟨rule, hrule, hread⟩ := Success.bind_eq_ok.mp hread
    obtain ⟨others, hothers, hread⟩ := Success.bind_eq_ok.mp hread
    obtain rfl := Success.pure_eq_ok.mp hread
    exact .cons (stands_of_read h hrule hbase hdraft) (ih hothers)

end Rule

/-- Names that can be read are texts. -/
theorem Keyword.eq_map_of_readNames {place : Scope} {list : List Json} {names : List String}
    (h : readNames place list = .ok names) : list = names.map .str := by
  induction list generalizing names with
  | nil =>
    obtain rfl := Except.ok.inj h
    rfl
  | cons v rest ih =>
    cases v with
    | str name =>
      rw [readNames] at h
      obtain ⟨others, hothers, rfl⟩ := Success.map_eq_ok.mp h
      rw [List.map_cons, ← ih hothers]
    | _ => cases h

theorem Rule.stands_of_dependenciesOf (h : follow.IsSeatless) {place : Scope} {members : List (String × Json)}
    {list : List (String × Dependency)} (hread : dependenciesOf place members = .ok list)
    (hbase : place.base = scope.base) (hdraft : place.draft = scope.draft) :
    List.Forall₂ (Dependency.StandsNamed follow scope) members list := by
  induction members generalizing list with
  | nil =>
    rw [dependenciesOf] at hread
    obtain rfl := Except.ok.inj hread
    exact .nil
  | cons member rest ih =>
    obtain ⟨name, node⟩ := member
    have hrule (harray : node.isArray = false)
        (hread : (do
          let rule ← read (place.under name) node
          let others ← dependenciesOf place rest
          return (name, Dependency.rule rule) :: others) = Except.ok list) :
        List.Forall₂ (Dependency.StandsNamed follow scope) ((name, node) :: rest) list := by
      obtain ⟨rule, hrule, hread⟩ := Success.bind_eq_ok.mp hread
      obtain ⟨others, hothers, hread⟩ := Success.bind_eq_ok.mp hread
      obtain rfl := Success.pure_eq_ok.mp hread
      exact .cons ⟨rfl, .rule harray (stands_of_read h hrule hbase hdraft)⟩ (ih hothers)
    cases node with
    | arr names =>
      rw [dependenciesOf] at hread
      obtain ⟨texts, htexts, hread⟩ := Success.bind_eq_ok.mp hread
      obtain ⟨others, hothers, hread⟩ := Success.bind_eq_ok.mp hread
      obtain rfl := Success.pure_eq_ok.mp hread
      exact .cons ⟨rfl, .names (Keyword.eq_map_of_readNames htexts)⟩ (ih hothers)
    | _ =>
      rw [dependenciesOf] at hread
      · exact hrule rfl hread
      · rintro _ ⟨⟩

/-- A pattern occurs in a name, as far as it is one. -/
def Pattern.Occurs (source name : String) : Prop :=
  ∃ pattern, Pattern.parse? source = some pattern ∧ pattern.occursIn name

theorem PatternRule.Stands.occurs_iff {member : String × Json} {pattern : PatternRule}
    (h : pattern.Stands follow scope member) (name : String) :
    pattern.pattern.occursIn name ↔ Pattern.Occurs member.1 name := by
  simp [Pattern.Occurs, h.parse_eq]

namespace Keyword

/-- The keyword has rules for parts of the value, or for the value itself. -/
def hasRules : Keyword → Bool
  | .contains _ | .allOf _ | .anyOf _ | .oneOf _ | .not _ _ | .items _ | .tuple _ | .furtherItems _ _
  | .properties _ | .patternProperties _ | .members _ _ _ | .propertyNames _ | .dependencies _
  | .conditional _ _ _ => true
  | _ => false

theorem findings_of_not_hasRules {keyword : Keyword} (h : keyword.hasRules = false) (follow : Follow) (v : Json) :
    keyword.findings follow v = keyword.ownFindings v := by
  cases keyword with
  | contains | allOf | anyOf | oneOf | not | items | tuple | furtherItems | properties | patternProperties
  | members | propertyNames | dependencies | conditional => cases h
  | _ => rfl

end Keyword

attribute [local simp] Rule.findings Keyword.findings keywordFindings allFindings acceptedBy tupleFindings
  optionalFindings propertyFindings declaredFindings patternFindings matchingFindings dependencyFindings

namespace Rule

variable {nodes : List Json} {rules : List Rule} {v : Json}

theorem allFindings_eq_nil_iff (h : List.Forall₂ (Stands follow scope) nodes rules) (index : Nat) :
    allFindings follow index rules v = [] ↔ ∀ node ∈ nodes, Accepts follow scope node v := by
  induction h generalizing index with
  | nil => simp
  | cons hrule _ ih => rw [allFindings, List.append_eq_nil_iff, List.forall_mem_cons, hrule.findings_iff _ v, ih]

theorem acceptedBy_eq_zero_iff (h : List.Forall₂ (Stands follow scope) nodes rules) :
    acceptedBy follow rules v = 0 ↔ ∀ node ∈ nodes, ¬ Accepts follow scope node v := by
  induction h with
  | nil => simp
  | cons hrule _ ih =>
    rw [acceptedBy, Nat.add_eq_zero_iff, ih, List.forall_mem_cons, ← hrule.findings_iff none v, ← List.isEmpty_iff]
    simp

private theorem existsUnique_cons_iff {P : Json → Prop} {node : Json} {nodes : List Json} :
    (∃! i : Nat, ∃ other, (node :: nodes)[i]? = some other ∧ P other) ↔
      P node ∧ (∀ other ∈ nodes, ¬ P other) ∨ ¬ P node ∧ ∃! i : Nat, ∃ other, nodes[i]? = some other ∧ P other := by
  constructor
  · rintro ⟨i, ⟨found, hfound, hP⟩, hunique⟩
    cases i with
    | zero =>
      obtain rfl := Option.some.inj hfound
      refine .inl ⟨hP, fun other hother hP' => ?_⟩
      obtain ⟨j, hj⟩ := List.getElem?_of_mem hother
      cases hunique (j + 1) ⟨other, hj, hP'⟩
    | succ i =>
      refine .inr ⟨fun hnode => ?_, i, ⟨found, hfound, hP⟩, fun j hj => ?_⟩
      · cases hunique 0 ⟨node, rfl, hnode⟩
      · exact Nat.succ.inj (hunique (j + 1) hj)
  · rintro (⟨hnode, hnone⟩ | ⟨hnode, i, hi, hunique⟩)
    · refine ⟨0, ⟨node, rfl, hnode⟩, fun j hj => ?_⟩
      obtain ⟨other, hother, hP⟩ := hj
      cases j with
      | zero => rfl
      | succ j => exact absurd hP (hnone other (List.mem_of_getElem? hother))
    · refine ⟨i + 1, hi, fun j hj => ?_⟩
      cases j with
      | zero =>
        obtain ⟨other, hother, hP⟩ := hj
        obtain rfl := Option.some.inj hother
        exact absurd hP hnode
      | succ j => exact congrArg Nat.succ (hunique j hj)

theorem acceptedBy_eq_one_iff (h : List.Forall₂ (Stands follow scope) nodes rules) :
    acceptedBy follow rules v = 1 ↔ ∃! i : Nat, ∃ node, nodes[i]? = some node ∧ Accepts follow scope node v := by
  induction h with
  | nil => simp
  | @cons node rule _ _ hrule hrest ih =>
    rw [existsUnique_cons_iff, ← hrule.findings_iff none v, ← acceptedBy_eq_zero_iff hrest, ← ih, acceptedBy,
      ← List.isEmpty_iff]
    cases (rule.findings follow none v).isEmpty <;> simp

theorem tupleFindings_eq_nil_iff (h : List.Forall₂ (Stands follow scope) nodes rules) (index : Nat)
    (items : List Json) : tupleFindings follow index rules items = [] ↔
      ∀ (i : Nat) node x, nodes[i]? = some node → items[i]? = some x → Accepts follow scope node x := by
  induction h generalizing index items with
  | nil => simp
  | cons hrule _ ih =>
    cases items with
    | nil => simp
    | cons x items =>
      rw [tupleFindings, List.append_eq_nil_iff, List.map_eq_nil_iff, hrule.findings_iff _ x, ih]
      constructor
      · rintro ⟨hfirst, hrest⟩ i node y hnode hy
        cases i with
        | zero =>
          obtain rfl := Option.some.inj hnode
          obtain rfl := Option.some.inj hy
          exact hfirst
        | succ i => exact hrest i node y hnode hy
      · exact fun hall => ⟨hall 0 _ x rfl rfl, fun i => hall (i + 1)⟩

variable {members data : List (String × Json)} {named : List (String × Rule)} {patterns : List PatternRule}

theorem propertyFindings_eq_nil_iff (h : List.Forall₂ (StandsNamed follow scope) members named) :
    propertyFindings follow named data = [] ↔
      ∀ name node, (name, node) ∈ members → ∀ x, data.lookup name = some x → Accepts follow scope node x := by
  induction h with
  | nil => simp
  | @cons member first _ _ hfirst _ ih =>
    obtain ⟨name, node⟩ := member
    obtain ⟨name', rule⟩ := first
    obtain ⟨rfl, hrule⟩ : name' = name ∧ Stands follow scope node rule := hfirst
    rw [propertyFindings, List.append_eq_nil_iff, ih]
    simp only [List.mem_cons, Prod.mk.injEq, or_imp, and_imp, forall_and, forall_eq_apply_imp_iff, forall_eq]
    refine and_congr ?_ Iff.rfl
    cases data.lookup name' with
    | none => simp
    | some x => simp [hrule.findings_iff _ x]

theorem declaredFindings_eq_nil_iff (h : List.Forall₂ (StandsNamed follow scope) members named) (name : String)
    (x : Json) : declaredFindings follow named name x = [] ↔
      ∀ node, members.lookup name = some node → Accepts follow scope node x := by
  induction h with
  | nil => simp
  | @cons member first _ _ hfirst _ ih =>
    obtain ⟨key, node⟩ := member
    obtain ⟨key', rule⟩ := first
    obtain ⟨rfl, hrule⟩ : key' = key ∧ Stands follow scope node rule := hfirst
    rw [declaredFindings, List.lookup_cons]
    by_cases hkey : key' = name
    · subst hkey
      rw [if_pos rfl, beq_self_eq_true, hrule.findings_iff _ x]
      simp
    · rw [if_neg hkey, beq_eq_false_iff_ne.mpr (Ne.symm hkey), ih]

theorem patternFindings_eq_nil_iff (h : List.Forall₂ (PatternRule.Stands follow scope) members patterns) :
    patternFindings follow patterns data = [] ↔
      ∀ source node, (source, node) ∈ members → ∀ name x, (name, x) ∈ data → Pattern.Occurs source name →
        Accepts follow scope node x := by
  induction h with
  | nil => simp
  | @cons member first _ _ hfirst _ ih =>
    obtain ⟨source, node⟩ := member
    obtain ⟨source', pattern, rule⟩ := first
    have hoccurs := hfirst.occurs_iff
    dsimp only at hoccurs
    rw [patternFindings, List.append_eq_nil_iff, ih, List.flatMap_eq_nil_iff]
    have hmember (name : String) (x : Json) :
        (if pattern.occursIn name then
          (rule.findings follow (some (Pointer.escape source')) x).map (·.under name) else []) = [] ↔
        (Pattern.Occurs source name → Accepts follow scope node x) := by
      rw [← hoccurs, ← hfirst.rule.findings_iff (some (Pointer.escape source')) x]
      split <;> simp_all
    simp only [Prod.forall, hmember, List.mem_cons, Prod.mk.injEq, or_imp, and_imp, forall_and, forall_eq_apply_imp_iff,
      forall_eq]

theorem matchingFindings_eq_nil_iff (h : List.Forall₂ (PatternRule.Stands follow scope) members patterns)
    (name : String) (x : Json) : matchingFindings follow patterns name x = [] ↔
      ∀ source node, (source, node) ∈ members → Pattern.Occurs source name → Accepts follow scope node x := by
  induction h with
  | nil => simp
  | @cons member first _ _ hfirst _ ih =>
    obtain ⟨source, node⟩ := member
    obtain ⟨source', pattern, rule⟩ := first
    have hoccurs := hfirst.occurs_iff name
    dsimp only at hoccurs
    rw [matchingFindings, List.append_eq_nil_iff, ih]
    have hmember : (if pattern.occursIn name then rule.findings follow (some (Pointer.escape source')) x else []) = [] ↔
        (Pattern.Occurs source name → Accepts follow scope node x) := by
      rw [← hoccurs, ← hfirst.rule.findings_iff (some (Pointer.escape source')) x]
      split <;> simp_all
    simp only [hmember, List.mem_cons, Prod.mk.injEq, or_imp, and_imp, forall_and, forall_eq_apply_imp_iff, forall_eq]

end Rule

theorem Rule.any_names_iff {members : List (String × Json)} {named : List (String × Rule)}
    (h : List.Forall₂ (StandsNamed follow scope) members named) (name : String) :
    named.any (·.1 = name) = false ↔ members.lookup name = none := by
  induction h with
  | nil => simp
  | @cons member first _ _ hfirst _ ih =>
    rw [List.any_cons, List.lookup_cons, Bool.or_eq_false_iff, ih, hfirst.1]
    by_cases hname : member.1 = name
    · simp [hname]
    · rw [decide_eq_false hname, beq_eq_false_iff_ne.mpr (Ne.symm hname)]
      exact and_iff_right rfl

theorem PatternRule.any_occurs_iff {members : List (String × Json)} {patterns : List PatternRule}
    (h : List.Forall₂ (PatternRule.Stands follow scope) members patterns) (name : String) :
    (patterns.any fun | .mk _ p _ => p.occursIn name) = false ↔
      ∀ source node, (source, node) ∈ members → ¬ Pattern.Occurs source name := by
  induction h with
  | nil => simp
  | @cons member first _ _ hfirst _ ih =>
    rw [List.any_cons, Bool.or_eq_false_iff, ih]
    obtain ⟨source, pattern, rule⟩ := first
    have hoccurs : pattern.occursIn name = false ↔ ¬ Pattern.Occurs member.1 name := by
      rw [← hfirst.occurs_iff name, Bool.not_eq_true]
    rw [hoccurs]
    simp only [List.mem_cons, or_imp, forall_and]
    refine and_congr ⟨?_, fun hall => hall member.1 member.2 rfl⟩ Iff.rfl
    rintro hnone _ _ rfl
    exact hnone

/-- A member is accepted by the schema of its name, by those of all patterns in its name, and where there are none of
these, by what is asked of other members. -/
@[mk_iff]
structure AcceptsMember (follow : Follow) (scope : Scope) (members sources : List (String × Json)) (other : Json → Prop)
    (name : String) (x : Json) : Prop where
  declared : ∀ node, members.lookup name = some node → Rule.Accepts follow scope node x
  matched : ∀ source node, (source, node) ∈ sources → Pattern.Occurs source name → Rule.Accepts follow scope node x
  further : members.lookup name = none ∧ (∀ source node, (source, node) ∈ sources → ¬ Pattern.Occurs source name) →
    other x

theorem Keyword.membersFindings_eq_nil_iff {members sources data : List (String × Json)} {named : List (String × Rule)}
    {patterns : List PatternRule} (hnamed : List.Forall₂ (Rule.StandsNamed follow scope) members named)
    (hpatterns : List.Forall₂ (PatternRule.Stands follow scope) sources patterns) (others : Option Rule) :
    (Keyword.members named patterns others).findings follow (.obj data) = [] ↔ ∀ name x, (name, x) ∈ data →
      AcceptsMember follow scope members sources
        (fun x => ∃ rule ∈ others, rule.findings follow (some "additionalProperties") x = []) name x := by
  have hfurther (name : String) :
      (!named.any (·.1 = name) && !patterns.any fun | .mk _ p _ => p.occursIn name) = true ↔
        members.lookup name = none ∧ ∀ source node, (source, node) ∈ sources → ¬ Pattern.Occurs source name := by
    rw [Bool.and_eq_true, Bool.not_eq_true', Bool.not_eq_true', Rule.any_names_iff hnamed,
      PatternRule.any_occurs_iff hpatterns]
  simp only [acceptsMember_iff]
  rw [Keyword.findings]
  dsimp only
  generalize hundeclared : data.filter _ = undeclared
  have hmem (name : String) (x : Json) : (name, x) ∈ undeclared ↔ (name, x) ∈ data ∧
      (members.lookup name = none ∧ ∀ source node, (source, node) ∈ sources → ¬ Pattern.Occurs source name) := by
    rw [← hundeclared, List.mem_filter]
    exact and_congr_right fun _ => hfurther name
  have hany (name : String) (x : Json) (hx : (name, x) ∈ data) : undeclared.any (·.1 = name) = true ↔
      members.lookup name = none ∧ ∀ source node, (source, node) ∈ sources → ¬ Pattern.Occurs source name := by
    rw [List.any_eq_true]
    constructor
    · rintro ⟨member, hmember, hname⟩
      obtain rfl := of_decide_eq_true hname
      exact ((hmem _ _).mp hmember).2
    · exact fun hname => ⟨(name, x), (hmem name x).mpr ⟨hx, hname⟩, decide_eq_true rfl⟩
  rw [List.append_eq_nil_iff, List.flatMap_eq_nil_iff, Prod.forall]
  cases others with
  | some rule =>
    simp only [Option.isNone_some, Bool.false_eq_true, false_and, if_false, and_true, List.map_eq_nil_iff,
      List.append_eq_nil_iff]
    refine forall₃_congr fun name x hx => ?_
    rw [Rule.declaredFindings_eq_nil_iff hnamed, Rule.matchingFindings_eq_nil_iff hpatterns, and_assoc,
      ite_eq_right_iff,
      hany name x hx]
    simp only [optionalFindings, Option.mem_def, Option.some.injEq, exists_eq_left']
  | none =>
    have hempty : undeclared = [] ↔ ∀ name x, (name, x) ∈ data →
        ¬ (members.lookup name = none ∧ ∀ source node, (source, node) ∈ sources → ¬ Pattern.Occurs source name) := by
      rw [List.eq_nil_iff_forall_not_mem, Prod.forall]
      exact forall₂_congr fun name x => by rw [hmem, not_and]
    have hrefused (found : List Finding) : (if (none : Option Rule).isNone = true ∧ undeclared ≠ [] then
        Finding.fault "additionalProperties" (.furtherMembers (undeclared.map (·.1))) :: found else found) = found ↔
        undeclared = [] := by
      by_cases h : undeclared = [] <;> simp [h]
    rw [hrefused, hempty, ← forall_and]
    refine forall_congr' fun name => ?_
    rw [← forall_and]
    refine forall_congr' fun x => ?_
    rw [← imp_and, List.map_eq_nil_iff, List.append_eq_nil_iff, List.append_eq_nil_iff,
      Rule.declaredFindings_eq_nil_iff hnamed, Rule.matchingFindings_eq_nil_iff hpatterns]
    simp only [optionalFindings, ite_self, and_true, Option.mem_def, reduceCtorEq, false_and, exists_false, and_assoc]

theorem missingMembers_eq_nil_iff {keyword : String} {data : List (String × Json)} {names : List String} :
    missingMembers keyword data names = [] ↔ ∀ name ∈ names, (data.lookup name).isSome := by
  rw [missingMembers, List.map_eq_nil_iff, List.filter_eq_nil_iff]
  refine forall₂_congr fun name _ => ?_
  cases data.lookup name <;> simp

/-- What the presence of members asks is met where schemas accept the object and it has the members listed. -/
theorem dependencyFindings_eq_nil_iff {members data : List (String × Json)} {list : List (String × Dependency)}
    (h : List.Forall₂ (Dependency.StandsNamed follow scope) members list) :
    dependencyFindings follow list data = [] ↔ ∀ name node, (name, node) ∈ members → (data.lookup name).isSome →
      (node.isArray = false → Rule.Accepts follow scope node (.obj data)) ∧
        ∀ names, node = .arr names → ∀ other, Json.str other ∈ names → (data.lookup other).isSome := by
  induction h with
  | nil => simp
  | @cons member first _ _ hfirst _ ih =>
    obtain ⟨name, node⟩ := member
    obtain ⟨name', dependency⟩ := first
    obtain ⟨rfl, hdependency⟩ : name' = name ∧ dependency.Stands follow scope node := hfirst
    have hdependent : dependentFindings follow name' dependency data = [] ↔
        (node.isArray = false → Rule.Accepts follow scope node (.obj data)) ∧
          ∀ names, node = .arr names → ∀ other, Json.str other ∈ names → (data.lookup other).isSome := by
      cases hdependency with
      | names hlist =>
        subst hlist
        simp [dependentFindings, missingMembers_eq_nil_iff, Json.isArray]
      | rule harray hrule =>
        rw [dependentFindings, hrule.findings_iff]
        constructor
        · refine fun haccepts => ⟨fun _ => haccepts, ?_⟩
          rintro names rfl
          cases harray
        · exact fun hboth => hboth.1 harray
    have hmember : (if (data.lookup name').isNone then [] else dependentFindings follow name' dependency data) = [] ↔
        ((data.lookup name').isSome → dependentFindings follow name' dependency data = []) := by
      cases data.lookup name' <;> simp
    rw [dependencyFindings, List.append_eq_nil_iff, ih, hmember, hdependent]
    constructor
    · rintro ⟨hfirst, hrest⟩ other inside hmem
      rcases List.mem_cons.mp hmem with hsame | hmem
      · obtain ⟨rfl, rfl⟩ := Prod.mk.inj hsame
        exact hfirst
      · exact hrest other inside hmem
    · exact fun hall => ⟨hall name' node List.mem_cons_self, fun other inside hmem =>
        hall other inside (List.mem_cons_of_mem _ hmem)⟩

section Reads

variable {v : Json}

namespace Rule

/-- The schema can be read. -/
def Reads (scope : Scope) (node : Json) : Prop := ∃ rule, read scope node = .ok rule

theorem Stands.reads {node : Json} {rule : Rule} (h : Stands follow scope node rule) : Reads scope node :=
  ⟨rule, h.read_eq⟩

theorem reads_of_stands {nodes : List Json} {rules : List Rule} (h : List.Forall₂ (Stands follow scope) nodes rules) :
    ∀ node ∈ nodes, Reads scope node := by
  induction h with
  | nil => simp
  | cons hrule _ ih => exact List.forall_mem_cons.mpr ⟨hrule.reads, ih⟩

theorem reads_of_standsNamed {nodes : List (String × Json)} {named : List (String × Rule)}
    (h : List.Forall₂ (StandsNamed follow scope) nodes named) : ∀ member ∈ nodes, Reads scope member.2 := by
  induction h with
  | nil => simp
  | cons hfirst _ ih => exact List.forall_mem_cons.mpr ⟨hfirst.2.reads, ih⟩

theorem reads_of_standsMatched {nodes : List (String × Json)} {patterns : List PatternRule}
    (h : List.Forall₂ (PatternRule.Stands follow scope) nodes patterns) : ∀ member ∈ nodes, Reads scope member.2 := by
  induction h with
  | nil => simp
  | cons hfirst _ ih => exact List.forall_mem_cons.mpr ⟨hfirst.rule.reads, ih⟩

theorem reads_of_standsDependent {nodes : List (String × Json)} {list : List (String × Dependency)}
    (h : List.Forall₂ (Dependency.StandsNamed follow scope) nodes list) :
    ∀ member ∈ nodes, member.2.isArray = false → Reads scope member.2 := by
  induction h with
  | nil => simp
  | @cons member dependency _ _ hfirst _ ih =>
    refine List.forall_mem_cons.mpr ⟨fun harray => ?_, ih⟩
    obtain ⟨name, node⟩ := member
    obtain ⟨name', dependency⟩ := dependency
    obtain ⟨rfl, hdependency⟩ : name' = name ∧ dependency.Stands follow scope node := hfirst
    cases hdependency with
    | names _ => cases harray
    | rule _ hrule => exact hrule.reads

theorem reads_bool (b : Bool) : Reads scope (.bool b) := by
  cases b with
  | false => exact ⟨.nothing, rfl⟩
  | true => exact ⟨.anything, rfl⟩

theorem accepts_bool {b : Bool} : Accepts follow scope (.bool b) v ↔ b = true := by
  cases b with
  | false =>
    refine iff_of_false ?_ Bool.false_ne_true
    rintro ⟨rule, hread, hnone⟩
    obtain rfl := Except.ok.inj hread
    simp [findings] at hnone
  | true => exact iff_of_true ⟨.anything, rfl, by simp [findings]⟩ rfl

end Rule
end Reads

end SchemaBound
