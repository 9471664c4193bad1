import SchemaBound.Proofs.Schema.Names
import SchemaBound.Proofs.Schema.Stripped

/-! What is in a schema document whose flags are gathered. At every place where a schema stands, the flags of its
fields have gone into its own list of required names, and nothing else changes. -/
namespace SchemaBound

namespace Json

theorem along_append (before after : List Step) (v : Json) :
    v.along? (before ++ after) = (v.along? before).bind (along? · after) := by
  induction before generalizing v with
  | nil => simp [along?]
  | cons step rest ih =>
    cases step with
    | member name =>
      cases v with
      | obj members =>
        rw [List.cons_append, along?, along?, Option.bind_assoc]
        exact Option.bind_congr fun next _ => ih next
      | _ => simp [along?]
    | item i =>
      cases v with
      | arr items =>
        rw [List.cons_append, along?, along?, Option.bind_assoc]
        exact Option.bind_congr fun next _ => ih next
      | _ => simp [along?]

theorem hasDistinctNames_along {steps : List Step} {v w : Json} (h : v.hasDistinctNames)
    (hw : v.along? steps = some w) : w.hasDistinctNames := by
  induction steps generalizing v with
  | nil =>
    rw [along?] at hw
    exact Option.some.inj hw ▸ h
  | cons step rest ih =>
    cases step with
    | member name =>
      cases v with
      | obj members =>
        obtain ⟨node, hnode, hw⟩ := Option.bind_eq_some_iff.mp hw
        exact ih (hasDistinctNames_obj h (mem_of_lookup hnode)) hw
      | _ => cases hw
    | item i =>
      cases v with
      | arr items =>
        obtain ⟨node, hnode, hw⟩ := Option.bind_eq_some_iff.mp hw
        exact ih (hasDistinctNames_arr h (List.mem_of_getElem? hnode)) hw
      | _ => cases hw

end Json

namespace Requirement
open Json

/-- Keywords that hold a single schema in which flags are gathered. -/
def singleKeywords : List String := ["additionalProperties", "additionalItems", "not", "if", "then", "else", "contains"]

/-- The value of the keyword is itself a schema in which flags are gathered. -/
def IsNode (keyword : String) (v : Json) : Prop :=
  keyword ∈ singleKeywords ∨ keyword ∈ listKeywords ∧ ¬ v.isArray

/-- How a schema stands in the one around it. The rule for a field gives its own flag away. -/
inductive Standing where
  | rule
  | schema
deriving DecidableEq

/-- The standing of the schemas that a keyword holds by name. -/
def Standing.under (keyword : String) : Standing := if keyword = "properties" then .rule else .schema

/-- The steps lead from the whole document to a schema that is gone through for flags, each step from a schema to
one that it holds. -/
inductive VisitedAt (S : Json) : List Step → Standing → Json → Prop
  | whole : VisitedAt S [] .schema S
  | named {steps : List Step} {standing : Standing} {members entries : List (String × Json)} {keyword name : String}
      {node : Json} : VisitedAt S steps standing (.obj members) → keyword ∈ nameKeywords →
      members.lookup keyword = some (.obj entries) → entries.lookup name = some node →
      VisitedAt S (steps ++ [.member keyword, .member name]) (.under keyword) node
  | listed {steps : List Step} {standing : Standing} {members : List (String × Json)} {nodes : List Json}
      {keyword : String} {i : Nat} {node : Json} : VisitedAt S steps standing (.obj members) →
      keyword ∈ listKeywords → members.lookup keyword = some (.arr nodes) → nodes[i]? = some node →
      VisitedAt S (steps ++ [.member keyword, .item i]) .schema node
  | value {steps : List Step} {standing : Standing} {members : List (String × Json)} {keyword : String}
      {node : Json} : VisitedAt S steps standing (.obj members) → IsNode keyword node →
      members.lookup keyword = some node → VisitedAt S (steps ++ [.member keyword]) .schema node

/-- What a schema says under `required`, once the schema around it has taken its flag. -/
def ownRequired (standing : Standing) (members : List (String × Json)) : Option Json :=
  match standing, members.lookup "required" with
  | .rule, some (.bool _) => none
  | _, required? => required?

/-- The rule has a flag of its own, which it loses. -/
def HasFlag (standing : Standing) (members : List (String × Json)) : Prop :=
  standing = .rule ∧ ∃ flag, members.lookup "required" = some (.bool flag)

/-- The values of a keyword are the same but for the schemas that they hold: these keep their names and their
order. -/
inductive SameButNodes (keyword : String) : Json → Json → Prop
  | named {entries others : List (String × Json)} : keyword ∈ nameKeywords → others.map (·.1) = entries.map (·.1) →
      SameButNodes keyword (.obj entries) (.obj others)
  | listed {nodes others : List Json} : keyword ∈ listKeywords → others.length = nodes.length →
      SameButNodes keyword (.arr nodes) (.arr others)
  | value {node other : Json} : IsNode keyword node → SameButNodes keyword node other
  | same (v : Json) : SameButNodes keyword v v

/-- The schema with the second members is the one with the first members, with the flags of its fields gathered. -/
structure Gathers (standing : Standing) (members after : List (String × Json)) : Prop where
  noFlags : ∀ rules, after.lookup "properties" = some (.obj rules) →
    ∀ rule ∈ rules, ∀ flag, rule.2.get? "required" ≠ some (.bool flag)
  made : ownRequired standing members = none → after.lookup "required" =
    if flaggedNames members = [] then none else some (.arr ((flaggedNames members).map .str))
  extended : ∀ list, ownRequired standing members = some (.arr list) → after.lookup "required" =
    some (.arr (list ++ ((flaggedNames members).filter fun name => Json.str name ∉ list).map .str))
  kept : ∀ v, ownRequired standing members = some v → ¬ v.isArray → after.lookup "required" = some v
  values : ∀ key, key ≠ "required" → Option.Rel (SameButNodes key) (members.lookup key) (after.lookup key)
  /-- A new list comes last. -/
  names : ¬ HasFlag standing members → after.map (·.1) = members.map (·.1) ++
    if ownRequired standing members = none ∧ flaggedNames members ≠ [] then ["required"] else []
  disordered : HasFlag standing members → (after.map (·.1)).Perm ((members.map (·.1)).erase "required" ++
    if flaggedNames members ≠ [] then ["required"] else [])

/-- The second document is the first one with the flags gathered: at every place where a schema stands, and nowhere
else. -/
structure GathersFlags (S H : Json) : Prop where
  places : ∀ {steps standing part}, VisitedAt S steps standing part → S.along? steps = some part
  nodes : ∀ {steps standing members}, VisitedAt S steps standing (.obj members) →
    ∃ after, H.along? steps = some (.obj after) ∧ Gathers standing members after
  others : ∀ {steps standing part}, VisitedAt S steps standing part → ¬ part.isObject → H.along? steps = some part

/-- A schema as it stands, with its flags gathered. -/
def gathered : Standing → Json → Json
  | .rule => hoistRule
  | .schema => hoist

/-- A rule loses its own flag. -/
def unflag : Standing → List (String × Json) → List (String × Json)
  | .rule => dropFlag
  | .schema => id

/-- The members of a schema whose flags are gathered. -/
def gatherMembers (standing : Standing) (members : List (String × Json)) : List (String × Json) :=
  require (flaggedNames members) (unflag standing (hoistMembers members))

theorem gathered_obj (standing : Standing) (members : List (String × Json)) :
    gathered standing (.obj members) = .obj (gatherMembers standing members) := by
  cases standing
  · exact hoistRule.eq_1 members
  · exact hoist.eq_1 members

theorem gathered_of_not_isObject {standing : Standing} {v : Json} (h : ¬ v.isObject) : gathered standing v = v := by
  cases v with
  | obj members => exact absurd rfl h
  | _ => cases standing <;> simp [gathered, hoist, hoistRule]

section Values

variable {keyword : String}

theorem hoistNesting_of_mem_nameKeywords (h : keyword ∈ nameKeywords) : hoistNesting keyword = .byName := by
  revert keyword
  decide

theorem hoistNesting_of_mem_listKeywords (h : keyword ∈ listKeywords) : hoistNesting keyword = .listOrOne := by
  revert keyword
  decide

theorem hoistNesting_of_mem_singleKeywords (h : keyword ∈ singleKeywords) : hoistNesting keyword = .one := by
  revert keyword
  decide

theorem hoistNesting_of_not_mem (hname : keyword ∉ nameKeywords) (hlist : keyword ∉ listKeywords)
    (hone : keyword ∉ singleKeywords) : hoistNesting keyword = .data := by
  simp only [nameKeywords, listKeywords, singleKeywords, List.mem_cons, List.not_mem_nil, or_false,
    not_or] at hname hlist hone
  unfold hoistNesting Nesting.ofKeyword
  by_cases hidle : keyword = "propertyNames" ∨ keyword = "dependencies"
  · rw [if_pos hidle]
  · rw [not_or] at hidle
    simp [hname, hlist, hone, hidle]

theorem hoistAt_named (h : keyword ∈ nameKeywords) (entries : List (String × Json)) :
    hoistAt keyword (.obj entries) = .obj (entries.map fun entry => (entry.1, gathered (.under keyword) entry.2)) := by
  simp only [hoistAt, hoistNesting_of_mem_nameKeywords h, Standing.under]
  by_cases hproperties : keyword = "properties"
  · rw [if_pos hproperties, if_pos hproperties, hoistRules_eq_map]
    rfl
  · rw [if_neg hproperties, if_neg hproperties, hoistNamed_eq_map]
    rfl

theorem hoistAt_listed (h : keyword ∈ listKeywords) (nodes : List Json) :
    hoistAt keyword (.arr nodes) = .arr (nodes.map hoist) := by
  simp only [hoistAt, hoistNesting_of_mem_listKeywords h, if_true, hoistItems_eq_map]

theorem hoistAt_value {v : Json} (h : IsNode keyword v) : hoistAt keyword v = hoist v := by
  rcases h with hone | ⟨hlist, harray⟩
  · cases v <;> simp [hoistAt, hoist, hoistNesting_of_mem_singleKeywords hone]
  · cases v with
    | arr nodes => exact absurd rfl harray
    | _ => simp [hoistAt, hoist, hoistNesting_of_mem_listKeywords hlist]

theorem hoistAt_data (h : hoistNesting keyword = .data) (v : Json) : hoistAt keyword v = v := by
  cases v <;> simp [hoistAt, h]

theorem hoistAt_of_not_isObject (h : keyword ∈ nameKeywords) {v : Json} (hv : ¬ v.isObject) :
    hoistAt keyword v = v := by
  cases v with
  | obj members => exact absurd rfl hv
  | arr nodes => rw [hoistAt, if_neg (by rw [hoistNesting_of_mem_nameKeywords h]; decide)]
  | _ => simp [hoistAt]

end Values

section Members

variable {standing : Standing} {members : List (String × Json)} {key : String}

theorem lookup_hoistMembers (members : List (String × Json)) (key : String) :
    (hoistMembers members).lookup key = (members.lookup key).map (hoistAt key) := by
  rw [hoistMembers_eq_map]
  exact lookup_map_named hoistAt members key

theorem lookup_required_hoistMembers (members : List (String × Json)) :
    (hoistMembers members).lookup "required" = members.lookup "required" := by
  rw [lookup_hoistMembers]
  cases members.lookup "required" with
  | none => rfl
  | some v => rw [Option.map_some, hoistAt_data (by decide)]

theorem appendMissing_eq {names : List String} (hnames : names.Nodup) (list : List Json) :
    appendMissing list names = list ++ (names.filter fun name => Json.str name ∉ list).map .str := by
  induction names generalizing list with
  | nil => simp [appendMissing]
  | cons name rest ih =>
    obtain ⟨hname, hrest⟩ := List.nodup_cons.mp hnames
    rw [appendMissing, List.filter_cons]
    by_cases hmem : Json.str name ∈ list
    · rw [if_pos hmem, ih hrest, if_neg (by simpa using hmem)]
    · -- The name that is added is none of those that follow.
      have hsame : (rest.filter fun other => Json.str other ∉ list ++ [Json.str name]) =
          rest.filter fun other => Json.str other ∉ list := by
        refine List.filter_congr fun other hother => ?_
        have hne : other ≠ name := by
          rintro rfl
          exact hname hother
        simp [hne]
      rw [if_neg hmem, ih hrest, if_pos (by simpa using hmem), hsame, List.map_cons, List.append_assoc]
      rfl

theorem lookup_require_ne (hkey : key ≠ "required") (names : List String) (members : List (String × Json)) :
    (require names members).lookup key = members.lookup key := by
  unfold require
  split
  · rfl
  · split
    · rw [List.lookup_append, List.lookup_cons, beq_eq_false_iff_ne.mpr hkey, List.lookup_nil, Option.or_none]
    · exact lookup_setMember_ne hkey _ members
    · rfl

/-- What stands under `required` once names are added. -/
def requiredWith (names : List String) : Option Json → Option Json
  | none => if names = [] then none else some (.arr (appendMissing [] names))
  | some (.arr list) => some (.arr (appendMissing list names))
  | some v => some v

theorem lookup_require_self (names : List String) (members : List (String × Json)) :
    (require names members).lookup "required" = requiredWith names (members.lookup "required") := by
  unfold require
  by_cases hnames : names = []
  · rw [if_pos hnames, hnames]
    cases members.lookup "required" with
    | none => rfl
    | some v => cases v <;> rfl
  · rw [if_neg hnames]
    cases hlookup : members.lookup "required" with
    | none =>
      rw [requiredWith, if_neg hnames, List.lookup_append, hlookup]
      simp
    | some v =>
      cases v with
      | arr list => exact lookup_setMember_self "required" _ members
      | _ => exact hlookup

theorem names_require (names : List String) (members : List (String × Json)) :
    (require names members).map (·.1) =
      members.map (·.1) ++ if members.lookup "required" = none ∧ names ≠ [] then ["required"] else [] := by
  unfold require
  by_cases hnames : names = []
  · simp [hnames]
  · cases hlookup : members.lookup "required" with
    | none => simp [hnames]
    | some v =>
      have hmem : "required" ∈ members.map (·.1) := by
        by_contra habsent
        rw [lookup_eq_none_iff_not_mem.mpr habsent] at hlookup
        cases hlookup
      cases v with
      | arr list => simpa [hnames] using names_setMember_of_mem _ hmem
      | _ => simp [hnames]

theorem ownRequired_of_hasFlag (h : HasFlag standing members) : ownRequired standing members = none := by
  obtain ⟨rfl, flag, hflag⟩ := h
  unfold ownRequired
  rw [hflag]

theorem ownRequired_of_not_hasFlag (h : ¬ HasFlag standing members) :
    ownRequired standing members = members.lookup "required" := by
  unfold ownRequired
  split
  · rename_i flag hflag
    exact absurd ⟨rfl, flag, hflag⟩ h
  · rfl

theorem unflag_of_hasFlag (h : HasFlag standing members) : unflag standing members = takeOut "required" members := by
  obtain ⟨rfl, flag, hflag⟩ := h
  change dropFlag members = _
  unfold dropFlag
  rw [hflag]

theorem unflag_of_not_hasFlag (h : ¬ HasFlag standing members) : unflag standing members = members := by
  cases standing with
  | rule =>
    change dropFlag members = members
    unfold dropFlag
    split
    · rename_i flag hflag
      exact absurd ⟨rfl, flag, hflag⟩ h
    · rfl
  | schema => rfl

theorem lookup_unflag_ne (hnames : (members.map (·.1)).Nodup) (hkey : key ≠ "required") (standing : Standing) :
    (unflag standing members).lookup key = members.lookup key := by
  by_cases hflag : HasFlag standing members
  · rw [unflag_of_hasFlag hflag, lookup_takeOut_ne hnames hkey]
  · rw [unflag_of_not_hasFlag hflag]

theorem lookup_unflag_required (hnames : (members.map (·.1)).Nodup) (standing : Standing) :
    (unflag standing members).lookup "required" = ownRequired standing members := by
  by_cases hflag : HasFlag standing members
  · rw [unflag_of_hasFlag hflag, lookup_takeOut_self hnames, ownRequired_of_hasFlag hflag]
  · rw [unflag_of_not_hasFlag hflag, ownRequired_of_not_hasFlag hflag]

theorem nodup_flaggedNames (h : (Json.obj members).hasDistinctNames) : (flaggedNames members).Nodup := by
  unfold flaggedNames
  split
  · rename_i rules hlookup
    have hrules := nodup_names (hasDistinctNames_get h hlookup)
    exact hrules.sublist (List.filter_sublist.map _)
  · exact List.nodup_nil

end Members

section Gathering

variable {standing : Standing} {members : List (String × Json)} {key : String}

theorem hasFlag_hoistMembers : HasFlag standing (hoistMembers members) ↔ HasFlag standing members := by
  rw [HasFlag, HasFlag, lookup_required_hoistMembers]

theorem ownRequired_hoistMembers : ownRequired standing (hoistMembers members) = ownRequired standing members := by
  unfold ownRequired
  rw [lookup_required_hoistMembers]

theorem lookup_gatherMembers_ne (hnames : (members.map (·.1)).Nodup) (hkey : key ≠ "required") :
    (gatherMembers standing members).lookup key = (members.lookup key).map (hoistAt key) := by
  have hhoisted : ((hoistMembers members).map (·.1)).Nodup := names_hoistMembers members ▸ hnames
  rw [gatherMembers, lookup_require_ne hkey, lookup_unflag_ne hhoisted hkey, lookup_hoistMembers]

theorem lookup_gatherMembers_required (hnames : (members.map (·.1)).Nodup) :
    (gatherMembers standing members).lookup "required" =
      requiredWith (flaggedNames members) (ownRequired standing members) := by
  have hhoisted : ((hoistMembers members).map (·.1)).Nodup := names_hoistMembers members ▸ hnames
  rw [gatherMembers, lookup_require_self, lookup_unflag_required hhoisted, ownRequired_hoistMembers]

theorem names_gatherMembers (hnames : (members.map (·.1)).Nodup) :
    (gatherMembers standing members).map (·.1) = (unflag standing (hoistMembers members)).map (·.1) ++
      if ownRequired standing members = none ∧ flaggedNames members ≠ [] then ["required"] else [] := by
  have hhoisted : ((hoistMembers members).map (·.1)).Nodup := names_hoistMembers members ▸ hnames
  rw [gatherMembers, names_require, lookup_unflag_required hhoisted, ownRequired_hoistMembers]

/-- A rule has no flag once it is gathered. -/
theorem get_required_hoistRule {rule : Json} (h : rule.hasDistinctNames) (flag : Bool) :
    (hoistRule rule).get? "required" ≠ some (.bool flag) := by
  cases rule with
  | obj members =>
    have hgathered : hoistRule (.obj members) = .obj (gatherMembers .rule members) := gathered_obj .rule members
    rw [hgathered, get?, lookup_gatherMembers_required (nodup_names h)]
    by_cases hflag : HasFlag .rule members
    · rw [ownRequired_of_hasFlag hflag, requiredWith]
      split <;> nofun
    · rw [ownRequired_of_not_hasFlag hflag]
      cases hlookup : members.lookup "required" with
      | none =>
        rw [requiredWith]
        split <;> nofun
      | some v =>
        cases v with
        | bool own => exact absurd ⟨rfl, own, hlookup⟩ hflag
        | _ => simp [requiredWith]
  | _ => simp [hoistRule, get?]

theorem sameButNodes_hoistAt (keyword : String) (v : Json) : SameButNodes keyword v (hoistAt keyword v) := by
  by_cases hname : keyword ∈ nameKeywords
  · cases v with
    | obj entries =>
      rw [hoistAt_named hname]
      exact .named hname (by rw [List.map_map]; rfl)
    | _ =>
      rw [hoistAt_of_not_isObject hname (by simp [isObject])]
      exact .same _
  · by_cases hnode : IsNode keyword v
    · exact .value hnode
    · by_cases hlist : keyword ∈ listKeywords
      · cases v with
        | arr nodes =>
          rw [hoistAt_listed hlist]
          exact .listed hlist (List.length_map _)
        | _ => exact absurd (.inr ⟨hlist, by simp [isArray]⟩) hnode
      · rw [hoistAt_data (hoistNesting_of_not_mem hname hlist fun hone => hnode (.inl hone))]
        exact .same v

/-- The members of a schema with its flags gathered. -/
theorem gathers_gatherMembers (standing : Standing) (h : (Json.obj members).hasDistinctNames) :
    Gathers standing members (gatherMembers standing members) where
  noFlags rules hrules rule hrule flag := by
    rw [lookup_gatherMembers_ne (nodup_names h) (by decide)] at hrules
    obtain ⟨v, hv, hrules⟩ := Option.map_eq_some_iff.mp hrules
    cases v with
    | obj entries =>
      rw [hoistAt_named (by decide), Json.obj.injEq] at hrules
      obtain ⟨entry, hentry, rfl⟩ := List.mem_map.mp (hrules ▸ hrule)
      have hdistinct := hasDistinctNames_obj (hasDistinctNames_obj h (mem_of_lookup hv)) hentry
      exact get_required_hoistRule hdistinct flag
    | _ => rw [hoistAt_of_not_isObject (by decide) (by simp [isObject])] at hrules; cases hrules
  made hown := by
    rw [lookup_gatherMembers_required (nodup_names h), hown, requiredWith, appendMissing_eq (nodup_flaggedNames h)]
    simp
  extended list hown := by
    rw [lookup_gatherMembers_required (nodup_names h), hown, requiredWith, appendMissing_eq (nodup_flaggedNames h)]
  kept v hown harray := by
    rw [lookup_gatherMembers_required (nodup_names h), hown]
    cases v with
    | arr list => exact absurd rfl harray
    | _ => rfl
  values key hkey := by
    rw [lookup_gatherMembers_ne (nodup_names h) hkey]
    cases members.lookup key with
    | none => exact .none
    | some v => exact .some (sameButNodes_hoistAt key v)
  names hflag := by
    rw [names_gatherMembers (nodup_names h), unflag_of_not_hasFlag (hasFlag_hoistMembers.not.mpr hflag),
      names_hoistMembers]
  disordered hflag := by
    have hperm := perm_names_takeOut "required" (hoistMembers members)
    rw [names_hoistMembers] at hperm
    rw [names_gatherMembers (nodup_names h), unflag_of_hasFlag (hasFlag_hoistMembers.mpr hflag),
      ownRequired_of_hasFlag hflag]
    simpa using hperm.append_right _

end Gathering

section Places

variable {steps : List Step} {standing : Standing} {S part : Json}

theorem VisitedAt.along (h : VisitedAt S steps standing part) : S.along? steps = some part := by
  induction h with
  | whole => simp [along?]
  | named _ _ hentries hnode ih =>
    rw [along_append, ih, Option.bind_some, along?, hentries, Option.bind_some, along?, hnode, Option.bind_some, along?]
  | listed _ _ hnodes hnode ih =>
    rw [along_append, ih, Option.bind_some, along?, hnodes, Option.bind_some, along?, hnode, Option.bind_some, along?]
  | value _ _ hnode ih => rw [along_append, ih, Option.bind_some, along?, hnode, Option.bind_some, along?]

theorem ne_required_of_isNode {keyword : String} {v : Json} (h : IsNode keyword v) : keyword ≠ "required" := by
  rintro rfl
  rcases h with hone | ⟨hlist, _⟩
  · revert hone
    decide
  · revert hlist
    decide

/-- Where a schema stands in a document, it stands with its flags gathered in the gathered document. -/
theorem VisitedAt.along_hoist (hd : S.hasDistinctNames) (h : VisitedAt S steps standing part) :
    (hoist S).along? steps = some (gathered standing part) := by
  have hlookup {steps : List Step} {standing : Standing} {members : List (String × Json)} {keyword : String} {v : Json}
      (h : VisitedAt S steps standing (.obj members)) (hkeyword : keyword ≠ "required")
      (hv : members.lookup keyword = some v) :
      (gatherMembers standing members).lookup keyword = some (hoistAt keyword v) := by
    rw [lookup_gatherMembers_ne (nodup_names (hasDistinctNames_along hd h.along)) hkeyword, hv, Option.map_some]
  induction h with
  | whole => simp [along?, gathered]
  | @named steps standing members entries keyword name node hwhole hkeyword hentries hnode ih =>
    have hvalue := hlookup hwhole (ne_required_of_mem_nameKeywords hkeyword) hentries
    rw [hoistAt_named hkeyword] at hvalue
    rw [along_append, ih, Option.bind_some, gathered_obj, along?, hvalue, Option.bind_some, along?, lookup_map_values,
      hnode, Option.map_some, Option.bind_some, along?]
  | @listed steps standing members nodes keyword i node hwhole hkeyword hnodes hnode ih =>
    have hvalue := hlookup hwhole (ne_required_of_mem_listKeywords hkeyword) hnodes
    rw [hoistAt_listed hkeyword] at hvalue
    rw [along_append, ih, Option.bind_some, gathered_obj, along?, hvalue, Option.bind_some, along?, List.getElem?_map,
      hnode, Option.map_some, Option.bind_some, along?, gathered]
  | @value steps standing members keyword node hwhole hkeyword hnode ih =>
    have hvalue := hlookup hwhole (ne_required_of_isNode hkeyword) hnode
    rw [hoistAt_value hkeyword] at hvalue
    rw [along_append, ih, Option.bind_some, gathered_obj, along?, hvalue, Option.bind_some, along?, gathered]

end Places

/-- Gathering flags keeps every requirement and makes none up. -/
theorem gathersFlags_hoist {S : Json} (hd : S.hasDistinctNames) : GathersFlags S (hoist S) where
  places h := h.along
  nodes {steps standing members} h := by
    refine ⟨gatherMembers standing members, ?_, gathers_gatherMembers standing (hasDistinctNames_along hd h.along)⟩
    rw [h.along_hoist hd, gathered_obj]
  others h hobject := by rw [h.along_hoist hd, gathered_of_not_isObject hobject]

end Requirement

namespace Schema
open Requirement

/-- A schema made of a document is that document with its flags gathered. -/
theorem gathersFlags_ofDocument {members : List (String × Json)} (hd : (Json.obj members).hasDistinctNames) :
    ∃ schema, ofDocument (.obj members) = .ok schema ∧ GathersFlags (.obj members) schema.document :=
  ⟨⟨hoist (.obj members)⟩, rfl, gathersFlags_hoist hd⟩

/-- Fields named as keywords are. The rule of one loses its flag and gets a list in its place, and its last member
moves. -/
theorem gathersFlags_ofDocument_nested :
    let document : Json := .obj [("required", .arr [.str "required"]), ("properties", .obj [
      ("properties", .obj [("required", .bool true), ("type", .str "object"),
        ("properties", .obj [("x", .obj [("required", .bool true)])])]),
      ("required", .obj [("type", .str "string"), ("required", .bool true)]),
      ("y", .obj [("required", .bool false)])])]
    let gathered : Json := .obj [("required", .arr [.str "required", .str "properties"]), ("properties", .obj [
      ("properties", .obj [("properties", .obj [("x", .obj [])]), ("type", .str "object"),
        ("required", .arr [.str "x"])]),
      ("required", .obj [("type", .str "string")]), ("y", .obj [])])]
    document.hasDistinctNames ∧ ofDocument document = .ok ⟨gathered⟩ ∧ GathersFlags document gathered := by
  intro document gathered
  have hd : document.hasDistinctNames := by decide +kernel
  obtain ⟨schema, hschema, hgathers⟩ := gathersFlags_ofDocument hd
  have hgathered : ofDocument document = .ok ⟨gathered⟩ := by rfl
  obtain rfl : schema = ⟨gathered⟩ := Except.ok.inj (hschema.symm.trans hgathered)
  exact ⟨hd, hgathered, hgathers⟩

end Schema
end SchemaBound
