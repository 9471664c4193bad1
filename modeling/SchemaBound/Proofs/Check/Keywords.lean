import SchemaBound.Proofs.Check.Rules
import SchemaBound.Proofs.Draft7.Keywords

/-! What the check asks for each keyword: the rules of Draft 7 for those that hold schemas. -/
namespace SchemaBound

/-- Keywords of all editions. -/
theorem Draft.knows_of_mem {key : String} (hkey : key ∈ ["type", "properties", "patternProperties",
    "additionalProperties", "items", "additionalItems", "allOf", "anyOf", "oneOf", "not", "dependencies", "required"])
    (draft : Draft) : draft.knows key := by
  simp only [List.mem_cons, List.not_mem_nil, or_false] at hkey
  rcases hkey with rfl | rfl | rfl | rfl | rfl | rfl | rfl | rfl | rfl | rfl | rfl | rfl <;> cases draft <;> rfl

theorem keywordFindings_eq_nil {follow : Follow} {list : List Keyword} {v : Json} :
    keywordFindings follow list v = [] ↔ ∀ keyword ∈ list, keyword.findings follow v = [] := by
  induction list with
  | nil => simp [keywordFindings]
  | cons keyword rest ih => rw [keywordFindings, List.append_eq_nil_iff, ih, List.forall_mem_cons]

theorem itemFindings_eq_nil {check : Json → List Finding} {start : Nat} {items : List Json} :
    itemFindings check start items = [] ↔ ∀ x ∈ items, check x = [] := by
  induction items generalizing start with
  | nil => simp [itemFindings]
  | cons x rest ih => simp only [itemFindings, List.append_eq_nil_iff, List.map_eq_nil_iff, ih, List.forall_mem_cons]

namespace Keyword

/-- What the member of a schema is read as, among the others. -/
def readMember (scope : Scope) (members : List (String × Json)) (key : String) (w : Json) : Readable (Option Keyword) :=
  readPart scope (Rule.partsOf scope members) key (Rule.partOf scope key w)

/-- The demand of a member of a schema, if it makes one, finds nothing wrong with the value. -/
def IsMet (follow : Follow) (scope : Scope) (members : List (String × Json)) (key : String) (w v : Json) : Prop :=
  ∀ keyword, readMember scope members key w = .ok (some keyword) → keyword.findings follow v = []

variable {follow : Follow} {scope : Scope} {members : List (String × Json)} {key : String} {w v : Json}

theorem isMet_iff {keyword? : Option Keyword} (h : readMember scope members key w = .ok keyword?) :
    IsMet follow scope members key w v ↔ ∀ keyword ∈ keyword?, keyword.findings follow v = [] := by
  unfold IsMet
  rw [h]
  simp [Option.mem_def]

theorem isMet_some {keyword : Keyword} (h : readMember scope members key w = .ok (some keyword)) :
    IsMet follow scope members key w v ↔ keyword.findings follow v = [] :=
  (isMet_iff h).trans (by simp)

theorem isMet_of_eq_none (h : readMember scope members key w = .ok none) : IsMet follow scope members key w v :=
  (isMet_iff h).mpr nofun

theorem isMet_of_not_knows (h : ¬ scope.draft.knows key) (v : Json) : IsMet follow scope members key w v := by
  refine isMet_of_eq_none ?_
  unfold readMember readPart
  rw [if_pos (by simpa using h)]

/-- All members can be read where their demands can, and these find nothing wrong exactly if each does. -/
theorem readParts_eq_ok (follow : Follow) {all parts : List (String × Part)} {list : List Keyword}
    (h : readParts scope all parts = .ok list) :
    (∀ part ∈ parts, ∃ keyword?, readPart scope all part.1 part.2 = .ok keyword?) ∧
      ∀ v, keywordFindings follow list v = [] ↔ ∀ part ∈ parts, ∀ keyword,
        readPart scope all part.1 part.2 = .ok (some keyword) → keyword.findings follow v = [] := by
  induction parts generalizing list with
  | nil =>
    obtain rfl := Except.ok.inj h
    simp [keywordFindings]
  | cons part rest ih =>
    obtain ⟨key, part⟩ := part
    rw [readParts] at h
    obtain ⟨keyword?, hkeyword, h⟩ := Success.bind_eq_ok.mp h
    obtain ⟨others, hothers, h⟩ := Success.bind_eq_ok.mp h
    obtain rfl := Success.pure_eq_ok.mp h
    obtain ⟨hread, hnone⟩ := ih hothers
    refine ⟨List.forall_mem_cons.mpr ⟨⟨keyword?, hkeyword⟩, hread⟩, fun v => ?_⟩
    rw [keywordFindings_eq_nil, List.forall_mem_append, List.forall_mem_cons, ← hnone v, keywordFindings_eq_nil,
      hkeyword]
    simp

end Keyword

namespace Rule

variable {follow : Follow} {scope : Scope} {members : List (String × Json)} {v : Json}

theorem mem_partsOf {key : String} {part : Part} :
    (key, part) ∈ partsOf scope members ↔ ∃ w, (key, w) ∈ members ∧ part = partOf scope key w := by
  induction members with
  | nil => simp [partsOf]
  | cons member rest ih =>
    obtain ⟨name, x⟩ := member
    rw [partsOf, List.mem_cons, ih]
    constructor
    · rintro (hsame | ⟨w, hw, rfl⟩)
      · obtain ⟨rfl, rfl⟩ := Prod.mk.inj hsame
        exact ⟨x, List.mem_cons_self, rfl⟩
      · exact ⟨w, List.mem_cons_of_mem _ hw, rfl⟩
    · rintro ⟨w, hw, rfl⟩
      rcases List.mem_cons.mp hw with hsame | hw
      · obtain ⟨rfl, rfl⟩ := Prod.mk.inj hsame
        exact .inl rfl
      · exact .inr ⟨w, hw, rfl⟩

/-- An object that is no reference can be read where its members can, and accepts what meets the demands of all. -/
theorem accepts_obj_iff (follow : Follow) (hnone : members.lookup "$ref" = none) (hnames : (members.map (·.1)).Nodup)
    {inner : Scope}
    (hinner : scope.inside (.obj members) = .ok inner) {rule : Rule} (hread : read scope (.obj members) = .ok rule) :
    (∀ key w, members.lookup key = some w → ∃ keyword?, Keyword.readMember inner members key w = .ok keyword?) ∧
      ∀ v, Accepts follow scope (.obj members) v ↔
        ∀ key w, members.lookup key = some w → Keyword.IsMet follow inner members key w v := by
  have hrule := hread
  rw [read, ofMembers, hnone] at hread
  obtain ⟨inner', hinner', hread⟩ := Success.bind_eq_ok.mp hread
  obtain rfl := Except.ok.inj (hinner.symm.trans hinner')
  obtain ⟨list, hlist, hread⟩ := Success.bind_eq_ok.mp hread
  obtain rfl := Success.pure_eq_ok.mp hread
  obtain ⟨hreads, hfindings⟩ := Keyword.readParts_eq_ok follow hlist
  refine ⟨fun key w hw => hreads (key, _) (mem_partsOf.mpr ⟨w, Json.mem_of_lookup hw, rfl⟩), fun v => ?_⟩
  have haccepts : Accepts follow scope (.obj members) v ↔ keywordFindings follow list v = [] := by
    constructor
    · rintro ⟨rule', hrule', hnone⟩
      obtain rfl := Except.ok.inj (hrule.symm.trans hrule')
      simpa only [findings] using hnone
    · exact fun hnone => ⟨_, hrule, by simpa only [findings] using hnone⟩
  rw [haccepts, hfindings]
  constructor
  · intro hall key w hw
    exact hall (key, _) (mem_partsOf.mpr ⟨w, Json.mem_of_lookup hw, rfl⟩)
  · rintro hall ⟨key, part⟩ hpart
    obtain ⟨w, hw, rfl⟩ := mem_partsOf.mp hpart
    exact hall key w (Json.lookup_of_mem hnames hw)

end Rule

section Members

variable {follow : Follow} {scope : Scope} {members : List (String × Json)} {w v : Json} {keyword? : Option Keyword}

namespace Rule

/-- The schema of a keyword that holds one. -/
theorem partOf_rule (scope : Scope) {key : String} (hkey : key ∈ ["additionalItems", "additionalProperties", "contains",
    "else", "if", "not", "propertyNames", "then"]) (w : Json) :
    partOf scope key w = .rule w (read (scope.under key) w) := by
  simp only [List.mem_cons, List.not_mem_nil, or_false] at hkey
  rcases hkey with rfl | rfl | rfl | rfl | rfl | rfl | rfl | rfl <;> cases w <;> simp [partOf, read, holdsRule]

theorem partOf_rules (scope : Scope) {key : String} (hkey : key ∈ ["items", "allOf", "anyOf", "oneOf"])
    (nodes : List Json) : partOf scope key (.arr nodes) = .rules nodes.length (rulesOf (scope.under key) 0 nodes) := by
  simp only [List.mem_cons, List.not_mem_nil, or_false] at hkey
  rcases hkey with rfl | rfl | rfl | rfl <;> simp only [partOf]

theorem partOf_items (scope : Scope) (hw : w.isArray = false) :
    partOf scope "items" w = .rule w (read (scope.under "items") w) := by
  cases w with
  | arr _ => cases hw
  | _ => simp [partOf, read, holdsRule]

end Rule

namespace Keyword
open Rule

-- what keywords find wrong, worked out once for all proofs below
attribute [local simp] findings ownFindings

/-- `then` and `else` count with the condition. -/
theorem readMember_outcome {key : String} (hkey : key = "then" ∨ key = "else") :
    readMember scope members key w = .ok none := by
  rw [readMember, partOf_rule scope (by rcases hkey with rfl | rfl <;> decide)]
  exact readPart_of_not_mem scope _ (by nofun) (by rcases hkey with rfl | rfl <;> simp [askersOf])

/-- What holds no schema asks what its keyword asks of data. -/
theorem readMember_of_value {key : String} (hpart : partOf scope key w = .value w) : readMember scope members key w =
    if !scope.draft.knows key then .ok none else readValue scope (partsOf scope members) key w := by
  rw [readMember, hpart]
  unfold readPart
  rfl

/-- Schemas for references, and those of a later draft, ask for nothing. -/
theorem readMember_unused {key : String} (hkey : key = "definitions" ∨ key = "$defs" ∨ key = "prefixItems") :
    readMember scope members key w = .ok none := by
  have hpart : partOf scope key w = .value w := by
    rcases hkey with rfl | rfl | rfl <;> cases w <;> rfl
  have hvalue : readValue scope (partsOf scope members) key w = .ok none := by
    rcases hkey with rfl | rfl | rfl <;> rfl
  rw [readMember_of_value hpart, hvalue, ite_self]

/-- Keywords for lists of schemas take offence at anything else. -/
theorem readMember_unlisted {key : String} (hkey : key = "allOf" ∨ key = "anyOf" ∨ key = "oneOf")
    (hw : w.isArray = false) :
    readMember scope members key w = scope.fault (.type w .array) := by
  have hknows : scope.draft.knows key := Draft.knows_of_mem (by rcases hkey with rfl | rfl | rfl <;> decide) _
  have hpart : partOf scope key w = .value w := by
    cases w with
    | arr items => cases hw
    | _ => rcases hkey with rfl | rfl | rfl <;> rfl
  have hvalue : readValue scope (partsOf scope members) key w = scope.fault (.type w .array) := by
    rcases hkey with rfl | rfl | rfl <;> rfl
  rw [readMember_of_value hpart, hknows]
  exact hvalue

variable (h : follow.IsSeatless)
include h

/-- Keywords that ask something of all schemas in a list. -/
theorem exists_nodes {key : String} {keyword : List Rule → Keyword}
    (hkey : (key, keyword) = ("allOf", .allOf) ∨ (key, keyword) = ("anyOf", .anyOf) ∨
      (key, keyword) = ("oneOf", .oneOf))
    (hread : readMember scope members key w = .ok keyword?) :
    ∃ nodes rules, w = .arr nodes ∧ List.Forall₂ (Stands follow scope) nodes rules ∧
      keyword? = some (keyword rules) := by
  have hknows : scope.draft.knows key := by
    refine Draft.knows_of_mem ?_ _
    rcases hkey with hkey | hkey | hkey <;> obtain ⟨rfl, rfl⟩ := Prod.mk.inj hkey <;> decide
  cases w with
  | arr nodes =>
    have hlist : (rulesOf (scope.under key) 0 nodes).map (fun rules => some (keyword rules)) = .ok keyword? := by
      rw [← hread, readMember]
      rcases hkey with hkey | hkey | hkey <;> obtain ⟨rfl, rfl⟩ := Prod.mk.inj hkey <;>
        rw [partOf_rules scope (by decide)] <;> simp only [readPart, hknows, Bool.not_true, Bool.false_eq_true,
          if_false]
    obtain ⟨rules, hrules, hkeyword⟩ := Success.map_eq_ok.mp hlist
    exact ⟨nodes, rules, rfl, stands_of_rulesOf h hrules rfl rfl, hkeyword.symm⟩
  | _ =>
    have hname : key = "allOf" ∨ key = "anyOf" ∨ key = "oneOf" :=
      hkey.imp (congrArg Prod.fst) (Or.imp (congrArg Prod.fst) (congrArg Prod.fst))
    rw [readMember_unlisted hname rfl] at hread
    cases hread

theorem allOf_iff (hread : readMember scope members "allOf" w = .ok keyword?) :
    ∃ nodes, w = .arr nodes ∧ (∀ node ∈ nodes, Reads scope node) ∧
      ∀ v, IsMet follow scope members "allOf" w v ↔ ∀ node ∈ nodes, Accepts follow scope node v := by
  obtain ⟨nodes, rules, rfl, hrules, rfl⟩ := exists_nodes h (.inl rfl) hread
  refine ⟨nodes, rfl, reads_of_stands hrules, fun v => (isMet_some hread).trans ?_⟩
  rw [findings]
  exact allFindings_eq_nil_iff hrules 0

theorem anyOf_iff (hread : readMember scope members "anyOf" w = .ok keyword?) :
    ∃ nodes, w = .arr nodes ∧ (∀ node ∈ nodes, Reads scope node) ∧
      ∀ v, IsMet follow scope members "anyOf" w v ↔ ∃ node ∈ nodes, Accepts follow scope node v := by
  obtain ⟨nodes, rules, rfl, hrules, rfl⟩ := exists_nodes h (.inr (.inl rfl)) hread
  refine ⟨nodes, rfl, reads_of_stands hrules, fun v => (isMet_some hread).trans ?_⟩
  have hnone := acceptedBy_eq_zero_iff hrules (v := v)
  rw [findings, ite_eq_right_iff, hnone]
  simp

theorem oneOf_iff (hread : readMember scope members "oneOf" w = .ok keyword?) :
    ∃ nodes, w = .arr nodes ∧ (∀ node ∈ nodes, Reads scope node) ∧
      ∀ v, IsMet follow scope members "oneOf" w v ↔
        ∃! i : Nat, ∃ node, nodes[i]? = some node ∧ Accepts follow scope node v := by
  obtain ⟨nodes, rules, rfl, hrules, rfl⟩ := exists_nodes h (.inr (.inr rfl)) hread
  refine ⟨nodes, rfl, reads_of_stands hrules, fun v => (isMet_some hread).trans ?_⟩
  rw [findings, ← acceptedBy_eq_one_iff hrules]
  split <;> simp_all

/-- Keywords that ask something of the one schema they hold. -/
theorem exists_rule {key : String} {keyword : Rule → Keyword}
    (hmember : readMember scope members key w = (read (scope.under key) w).map fun rule => some (keyword rule))
    (hread : readMember scope members key w = .ok keyword?) :
    ∃ rule, Stands follow scope w rule ∧ keyword? = some (keyword rule) := by
  obtain ⟨rule, hrule, hkeyword⟩ := Success.map_eq_ok.mp (hmember.symm.trans hread)
  exact ⟨rule, stands_of_read h hrule rfl rfl, hkeyword.symm⟩

theorem not_iff (hread : readMember scope members "not" w = .ok keyword?) :
    Reads scope w ∧ ∀ v, IsMet follow scope members "not" w v ↔ ¬ Accepts follow scope w v := by
  have hknows : scope.draft.knows "not" := Draft.knows_of_mem (by decide) _
  have hmember : readMember scope members "not" w = (read (scope.under "not") w).map fun rule => some (.not w rule) := by
    rw [readMember, partOf_rule scope (by decide)]
    simp only [readPart, hknows, Bool.not_true, Bool.false_eq_true, if_false]
  obtain ⟨rule, hstands, rfl⟩ := exists_rule h hmember hread
  refine ⟨hstands.reads, fun v => (isMet_some hread).trans ?_⟩
  rw [findings, ← hstands.findings_iff (some "not") v, ← List.isEmpty_iff]
  simp

theorem contains_iff (hknows : scope.draft.knows "contains")
    (hread : readMember scope members "contains" w = .ok keyword?) :
    Reads scope w ∧ ∀ v, IsMet follow scope members "contains" w v ↔
      ∀ items, v = .arr items → ∃ x ∈ items, Accepts follow scope w x := by
  have hmember : readMember scope members "contains" w =
      (read (scope.under "contains") w).map fun rule => some (.contains rule) := by
    rw [readMember, partOf_rule scope (by decide)]
    simp only [readPart, hknows, Bool.not_true, Bool.false_eq_true, if_false]
  obtain ⟨rule, hstands, rfl⟩ := exists_rule h hmember hread
  refine ⟨hstands.reads, fun v => (isMet_some hread).trans ?_⟩
  cases v with
  | arr items =>
    rw [findings, ite_eq_left_iff, List.any_eq_true]
    simp [← hstands.findings_iff (some "contains")]
  | _ => simp

omit h in
/-- What is no list under `items` is one schema for all items, if it is a schema. -/
theorem readMember_items (hw : w.isArray = false) : readMember scope members "items" w =
    if w.isObject ∨ w = .bool false then (read (scope.under "items") w).map fun rule => some (.items rule)
    else .ok none := by
  have hknows : scope.draft.knows "items" := Draft.knows_of_mem (by decide) _
  rw [readMember, partOf_items scope hw]
  simp only [readPart, hknows, Bool.not_true, Bool.false_eq_true, if_false]

theorem items_iff_of_isSchema (hw : w.isSchema) (hread : readMember scope members "items" w = .ok keyword?) :
    Reads scope w ∧ ∀ v, IsMet follow scope members "items" w v ↔
      ∀ items, v = .arr items → ∀ x ∈ items, Accepts follow scope w x := by
  have harray : w.isArray = false := by
    cases w with
    | arr _ => cases hw
    | _ => rfl
  have hmember : readMember scope members "items" w = _ := readMember_items harray
  split at hmember
  · obtain ⟨rule, hstands, rfl⟩ := exists_rule h hmember hread
    refine ⟨hstands.reads, fun v => (isMet_some hread).trans ?_⟩
    cases v with
    | arr items =>
      rw [findings, itemFindings_eq_nil]
      simp [hstands.findings_iff (some "items")]
    | _ => simp
  · rename_i hnot
    obtain rfl : w = .bool true := by
      cases w with
      | bool b => cases b <;> simp_all
      | obj _ => simp [Json.isObject] at hnot
      | _ => cases hw
    refine ⟨reads_bool true, fun v => iff_of_true (isMet_of_eq_none hmember) fun _ _ _ _ => accepts_bool.mpr rfl⟩

theorem items_iff_of_nodes {nodes : List Json} (hread : readMember scope members "items" (.arr nodes) = .ok keyword?) :
    (∀ node ∈ nodes, Reads scope node) ∧ ∀ v, IsMet follow scope members "items" (.arr nodes) v ↔
      ∀ items, v = .arr items → ∀ (i : Nat) node x, nodes[i]? = some node → items[i]? = some x →
        Accepts follow scope node x := by
  have hknows : scope.draft.knows "items" := Draft.knows_of_mem (by decide) _
  have hlist : (rulesOf (scope.under "items") 0 nodes).map (fun rules => some (tuple rules)) = .ok keyword? := by
    rw [← hread, readMember, partOf_rules scope (by decide)]
    simp only [readPart, hknows, Bool.not_true, Bool.false_eq_true, if_false]
  obtain ⟨rules, hrules, rfl⟩ := Success.map_eq_ok.mp hlist
  have hstands : List.Forall₂ (Stands follow scope) nodes rules := stands_of_rulesOf h hrules rfl rfl
  refine ⟨reads_of_stands hstands, fun v => (isMet_some hread).trans ?_⟩
  cases v with
  | arr items =>
    rw [findings, tupleFindings_eq_nil_iff hstands]
    simp
  | _ => simp

omit h in
/-- Other values say nothing of items. -/
theorem isMet_items (hw : w.isSchema = false) (harray : w.isArray = false) (v : Json) :
    IsMet follow scope members "items" w v := by
  refine isMet_of_eq_none ((readMember_items harray).trans (if_neg ?_))
  rintro (hobject | rfl)
  · simp [Json.isSchema, hobject] at hw
  · cases hw

/-- A schema for the items after those that have one by their position. -/
theorem additionalItems_iff {nodes : List Json} (hitems : members.lookup "items" = some (.arr nodes))
    (hw : w.isSchema) (hread : readMember scope members "additionalItems" w = .ok keyword?) :
    Reads scope w ∧ ∀ v, IsMet follow scope members "additionalItems" w v ↔
      ∀ items, v = .arr items → ∀ (i : Nat) x, nodes.length ≤ i → items[i]? = some x → Accepts follow scope w x := by
  have hknows : scope.draft.knows "additionalItems" := Draft.knows_of_mem (by decide) _
  have hmember : readMember scope members "additionalItems" w =
      if w.isObject then (read (scope.under "additionalItems") w).map fun rule => some (.furtherItems nodes.length rule)
      else .ok (if w = .bool false then some (.noFurtherItems nodes.length) else none) := by
    rw [readMember, partOf_rule scope (by decide)]
    simp only [readPart, hknows, Bool.not_true, Bool.false_eq_true, if_false, lookup_partsOf, hitems, Option.map_some,
      partOf_rules scope (by decide : "items" ∈ ["items", "allOf", "anyOf", "oneOf"])]
  have hdrop (items : List Json) (P : Json → Prop) :
      (∀ x ∈ items.drop nodes.length, P x) ↔ ∀ (i : Nat) x, nodes.length ≤ i → items[i]? = some x → P x := by
    constructor
    · intro hall i x hi hx
      refine hall x (List.mem_of_getElem? (i := i - nodes.length) ?_)
      rwa [List.getElem?_drop, Nat.add_sub_cancel' hi]
    · intro hall x hx
      obtain ⟨i, hi⟩ := List.getElem?_of_mem hx
      rw [List.getElem?_drop] at hi
      exact hall _ x (Nat.le_add_right _ _) hi
  cases w with
  | obj rules =>
    obtain ⟨rule, hstands, rfl⟩ := exists_rule h (hmember.trans (if_pos rfl)) hread
    refine ⟨hstands.reads, fun v => (isMet_some hread).trans ?_⟩
    cases v with
    | arr items =>
      rw [findings, itemFindings_eq_nil]
      simp only [hstands.findings_iff (some "additionalItems"), hdrop, Json.arr.injEq, forall_eq']
    | _ => simp
  | bool b =>
    refine ⟨reads_bool b, fun v => ?_⟩
    cases b with
    | true => exact iff_of_true (isMet_of_eq_none hmember) fun _ _ _ _ _ _ => accepts_bool.mpr rfl
    | false =>
      refine (isMet_some hmember).trans ?_
      rw [findings_of_not_hasRules rfl]
      cases v with
      | arr items =>
        simp only [ownFindings, Json.arr.injEq, forall_eq', accepts_bool, Bool.false_eq_true, ← hdrop]
        simp [← List.eq_nil_iff_forall_not_mem]
      | _ => simp
  | _ => cases hw

omit h in
/-- Without a list of `items` further items are not asked for, but with `false` in its place nothing is accepted. -/
theorem isMet_additionalItems_iff (hitems : ∀ nodes, members.lookup "items" ≠ some (.arr nodes)) :
    IsMet follow scope members "additionalItems" w v ↔ members.lookup "items" ≠ some (.bool false) := by
  have hknows : scope.draft.knows "additionalItems" := Draft.knows_of_mem (by decide) _
  have hmember : readMember scope members "additionalItems" w =
      .ok (if members.lookup "items" = some (.bool false) then some .nothingFurther else none) := by
    rw [readMember, partOf_rule scope (by decide)]
    simp only [readPart, hknows, Bool.not_true, Bool.false_eq_true, if_false, lookup_partsOf]
    cases hother : members.lookup "items" with
    | none => rfl
    | some other =>
      have harray : other.isArray = false := by
        cases other with
        | arr nodes => exact absurd hother (hitems nodes)
        | _ => rfl
      simp only [Option.map_some, partOf_items scope harray, Option.some.injEq]
  by_cases hother : members.lookup "items" = some (.bool false)
  · rw [if_pos hother] at hmember
    refine iff_of_false (fun hmet => ?_) (not_not_intro hother)
    simpa [findings, ownFindings] using (isMet_some hmember).mp hmet
  · rw [if_neg hother] at hmember
    exact iff_of_true (isMet_of_eq_none hmember) hother

omit h in
/-- Other values say nothing of further items. -/
theorem isMet_additionalItems {nodes : List Json} (hitems : members.lookup "items" = some (.arr nodes))
    (hw : w.isSchema = false) (v : Json) : IsMet follow scope members "additionalItems" w v := by
  have hknows : scope.draft.knows "additionalItems" := Draft.knows_of_mem (by decide) _
  have hobject : ¬ w.isObject := fun hobject => by simp [Json.isSchema, hobject] at hw
  have hfalse : w ≠ .bool false := by
    rintro rfl
    cases hw
  refine isMet_of_eq_none ?_
  rw [readMember, partOf_rule scope (by decide)]
  simp only [readPart, hknows, Bool.not_true, Bool.false_eq_true, if_false, lookup_partsOf, hitems, Option.map_some,
    partOf_rules scope (by decide : "items" ∈ ["items", "allOf", "anyOf", "oneOf"]), if_neg hobject, if_neg hfalse]

omit h in
/-- What is under `propertyNames` is one schema for all names, if it is a schema. -/
theorem readMember_propertyNames (hknows : scope.draft.knows "propertyNames") :
    readMember scope members "propertyNames" w =
      if w.isObject then (read (scope.under "propertyNames") w).map fun rule => some (.propertyNames rule)
      else .ok (if w = .bool false then some .noPropertyNames else none) := by
  rw [readMember, partOf_rule scope (by decide)]
  simp only [readPart, hknows, Bool.not_true, Bool.false_eq_true, if_false]

theorem propertyNames_iff (hknows : scope.draft.knows "propertyNames") (hw : w.isSchema)
    (hread : readMember scope members "propertyNames" w = .ok keyword?) :
    Reads scope w ∧ ∀ v, IsMet follow scope members "propertyNames" w v ↔
      ∀ data, v = .obj data → ∀ name x, (name, x) ∈ data → Accepts follow scope w (.str name) := by
  have hmember : readMember scope members "propertyNames" w = _ := readMember_propertyNames hknows
  cases w with
  | obj rules =>
    obtain ⟨rule, hstands, rfl⟩ := exists_rule h (hmember.trans (if_pos rfl)) hread
    refine ⟨hstands.reads, fun v => (isMet_some hread).trans ?_⟩
    cases v with
    | obj data =>
      rw [findings, List.flatMap_eq_nil_iff]
      simp only [List.map_eq_nil_iff, hstands.findings_iff (some "propertyNames"), Json.obj.injEq, forall_eq',
        Prod.forall]
    | _ => simp
  | bool b =>
    refine ⟨reads_bool b, fun v => ?_⟩
    cases b with
    | true => exact iff_of_true (isMet_of_eq_none hmember) fun _ _ _ _ _ => accepts_bool.mpr rfl
    | false =>
      refine (isMet_some hmember).trans ?_
      rw [findings_of_not_hasRules rfl]
      cases v with
      | obj data =>
        cases data with
        | nil => simp
        | cons member rest => simpa [ownFindings, accepts_bool] using ⟨member.1, member.2, fun hne => absurd rfl hne⟩
      | _ => simp
  | _ => cases hw

omit h in
/-- Other values say nothing of names. -/
theorem isMet_propertyNames (hw : w.isSchema = false) (v : Json) :
    IsMet follow scope members "propertyNames" w v := by
  by_cases hknows : scope.draft.knows "propertyNames"
  · refine isMet_of_eq_none ((readMember_propertyNames hknows).trans ?_)
    cases w with
    | obj _ | bool _ => cases hw
    | _ => rfl
  · exact isMet_of_not_knows hknows v

/-- What follows from the condition under `if`, or from its opposite. -/
theorem optionalRule_iff {key : String} (hkey : key = "then" ∨ key = "else") {rule? : Option Rule}
    (hread : Part.optionalRule ((partsOf scope members).lookup key) = .ok rule?) :
    (∀ node, members.lookup key = some node → Reads scope node) ∧
    ∀ seat v, optionalFindings follow seat rule? v = [] ↔
      ∀ node, members.lookup key = some node → Accepts follow scope node v := by
  rw [lookup_partsOf] at hread
  cases hnode : members.lookup key with
  | none =>
    rw [hnode] at hread
    obtain rfl := Except.ok.inj hread
    simp [optionalFindings]
  | some node =>
    have hpart : partOf scope key node = .rule node (read (scope.under key) node) :=
      partOf_rule scope (by rcases hkey with rfl | rfl <;> decide) node
    rw [hnode, Option.map_some, hpart] at hread
    obtain ⟨rule, hrule, rfl⟩ := Success.map_eq_ok.mp hread
    have hstands : Stands follow scope node rule := stands_of_read h hrule rfl rfl
    simp only [Option.some.injEq, forall_eq', optionalFindings]
    exact ⟨hstands.reads, fun seat v => hstands.findings_iff (some seat) v⟩

/-- `then` and `else` with the condition under `if`, which alone asks for nothing. -/
theorem if_iff (hknows : scope.draft.knows "if") (hread : readMember scope members "if" w = .ok keyword?) :
    ((members.lookup "then").isSome ∨ (members.lookup "else").isSome → Reads scope w) ∧
    (∀ node, members.lookup "then" = some node ∨ members.lookup "else" = some node → Reads scope node) ∧
    ∀ v, IsMet follow scope members "if" w v ↔
      (∀ node, members.lookup "then" = some node → Accepts follow scope w v → Accepts follow scope node v) ∧
      (∀ node, members.lookup "else" = some node → ¬ Accepts follow scope w v → Accepts follow scope node v) := by
  have hmember := hread
  rw [readMember, partOf_rule scope (by decide)] at hmember
  simp only [readPart, hknows, Bool.not_true, Bool.false_eq_true, if_false] at hmember
  split at hmember
  · rename_i hneither
    simp only [lookup_partsOf, Option.isNone_map, Option.isNone_iff_eq_none] at hneither
    obtain rfl := Except.ok.inj hmember
    simp [hneither, isMet_of_eq_none hread]
  · obtain ⟨condition, hcondition, hmember⟩ := Success.bind_eq_ok.mp hmember
    obtain ⟨holds, hholds, hmember⟩ := Success.bind_eq_ok.mp hmember
    obtain ⟨fails, hfails, hmember⟩ := Success.bind_eq_ok.mp hmember
    obtain rfl := Success.pure_eq_ok.mp hmember
    have hstands : Stands follow scope w condition := stands_of_read h hcondition rfl rfl
    obtain ⟨hthen, hthenFindings⟩ := optionalRule_iff h (.inl rfl) hholds
    obtain ⟨helse, helseFindings⟩ := optionalRule_iff h (.inr rfl) hfails
    refine ⟨fun _ => hstands.reads, fun node hnode => hnode.elim (hthen node) (helse node), fun v => ?_⟩
    rw [isMet_some hread, findings]
    by_cases haccepts : Accepts follow scope w v
    · rw [if_pos (List.isEmpty_iff.mpr ((hstands.findings_iff _ v).mpr haccepts)), hthenFindings]
      simp [haccepts]
    · rw [if_neg (fun hempty => haccepts ((hstands.findings_iff _ v).mp (List.isEmpty_iff.mp hempty))), helseFindings]
      simp [haccepts]

theorem dependencies_iff (hread : readMember scope members "dependencies" w = .ok keyword?) :
    ∃ list, w = .obj list ∧ (∀ name node, (name, node) ∈ list → node.isArray = false → Reads scope node) ∧
      ∀ v, IsMet follow scope members "dependencies" w v ↔
        ∀ data, v = .obj data → ∀ name node, (name, node) ∈ list → (data.lookup name).isSome →
          (node.isArray = false → Accepts follow scope node (.obj data)) ∧
            ∀ names, node = .arr names → ∀ other, Json.str other ∈ names → (data.lookup other).isSome := by
  have hknows : scope.draft.knows "dependencies" := Draft.knows_of_mem (by decide) _
  cases w with
  | obj list =>
    have hpart : partOf scope "dependencies" (.obj list) =
        .dependencies (dependenciesOf (scope.under "dependencies") list) := by simp only [partOf]
    have hmember := hread
    rw [readMember, hpart] at hmember
    simp only [readPart, hknows, Bool.not_true, Bool.false_eq_true, if_false] at hmember
    obtain ⟨found, hfound, rfl⟩ := Success.map_eq_ok.mp hmember
    have hstands : List.Forall₂ (Dependency.StandsNamed follow scope) list found :=
      stands_of_dependenciesOf h hfound rfl rfl
    refine ⟨list, rfl, fun name node hnode harray => ?_, fun v => (isMet_some hread).trans ?_⟩
    · exact reads_of_standsDependent hstands (name, node) hnode harray
    · cases v with
      | obj data =>
        rw [findings, dependencyFindings_eq_nil_iff hstands]
        simp only [Json.obj.injEq, forall_eq']
      | _ => simp
  | _ =>
    rw [readMember_of_value rfl, hknows] at hread
    cases hread

omit h in
/-- Required names are listed. -/
theorem readMember_required : readMember scope members "required" w = match w with
    | .arr names => (readNames (scope.under "required") names).map fun names => some (.required names)
    | v => (scope.under "required").fault (.type v .array) := by
  have hpart : partOf scope "required" w = .value w := by cases w <;> rfl
  have hknows : scope.draft.knows "required" := Draft.knows_of_mem (by decide) _
  rw [readMember_of_value hpart, hknows]
  rfl

omit h in
theorem required_iff (hread : readMember scope members "required" w = .ok keyword?) :
    ∃ names, w = .arr names ∧ ∀ v, IsMet follow scope members "required" w v ↔
      ∀ data, v = .obj data → ∀ name, Json.str name ∈ names → (data.lookup name).isSome := by
  have hmember := hread
  rw [readMember_required] at hmember
  cases w with
  | arr list =>
    obtain ⟨names, hnames, rfl⟩ := Success.map_eq_ok.mp hmember
    obtain rfl := eq_map_of_readNames hnames
    refine ⟨_, rfl, fun v => (isMet_some hread).trans ?_⟩
    rw [findings_of_not_hasRules rfl]
    cases v with
    | obj data => simp [missingMembers_eq_nil_iff]
    | _ => simp
  | _ => cases hmember

end Keyword
end Members
end SchemaBound
