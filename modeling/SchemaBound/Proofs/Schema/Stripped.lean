import Mathlib.Data.List.Forall2
import SchemaBound.Proofs.Json.Address
import SchemaBound.Proofs.Json.Contents
import SchemaBound.Proofs.Json.Leaves
import SchemaBound.Proofs.Schema.Form

/-! What is left of a schema without its requirements. At every place where a schema stands the same schema stands
without its own requirements, at the same pointer, and nothing else changes. -/
namespace SchemaBound

namespace Json

/-- The token of a pointer names the step: a member by its name, and an item by its index. -/
def Step.IsNamedBy : Step → String → Prop
  | .member name, token => token = name
  | .item i, token => Pointer.readIndex? token = some i

/-- The part of a value that the steps lead to. -/
def along? : Json → List Step → Option Json
  | v, [] => some v
  | .obj members, .member name :: steps => (members.lookup name).bind (along? · steps)
  | .arr items, .item i :: steps => items[i]?.bind (along? · steps)
  | _, _ :: _ => none

/-- Tokens that name the steps lead to the same part. -/
theorem follow_of_along {steps : List Step} {tokens : List String} (hnames : List.Forall₂ Step.IsNamedBy steps tokens)
    {v w : Json} : v.along? steps = some w → v.follow? tokens = some w := by
  induction hnames generalizing v with
  | nil => simp [along?, follow?]
  | @cons step token _ _ hstep _ ih =>
    intro h
    rw [follow?]
    cases step with
    | member name =>
      obtain rfl : token = name := hstep
      cases v with
      | obj members =>
        obtain ⟨node, hnode, h⟩ := Option.bind_eq_some_iff.mp h
        rw [childAt?, hnode]
        exact ih h
      | _ => cases h
    | item i =>
      cases v with
      | arr items =>
        obtain ⟨node, hnode, h⟩ := Option.bind_eq_some_iff.mp h
        rw [childAt?, show Pointer.readIndex? token = some i from hstep, Option.bind_some, hnode]
        exact ih h
      | _ => cases h

end Json

namespace Requirement
open Json

/-- Keywords whose values are objects with schemas for members. -/
def nameKeywords : List String := ["properties", "patternProperties", "definitions", "$defs"]

/-- Keywords whose values are lists of schemas, or schemas. -/
def listKeywords : List String := ["allOf", "anyOf", "oneOf", "prefixItems", "items"]

/-- Keywords whose values are schemas. -/
def schemaKeywords : List String :=
  ["additionalProperties", "additionalItems", "contains", "not", "if", "then", "else", "propertyNames"]

/-- The value of the keyword is itself a schema. -/
def IsSchemaValue (keyword : String) (v : Json) : Prop :=
  keyword ∈ schemaKeywords ∨ keyword ∈ listKeywords ∧ ¬ v.isArray

/-- The steps lead from a schema to a part of it, from each schema on the way to one that stands in it. -/
inductive SchemaAt : List Step → Json → Json → Prop
  | here (v : Json) : SchemaAt [] v v
  | named {keyword name : String} {members entries : List (String × Json)} {node part : Json} {steps : List Step} :
      keyword ∈ nameKeywords → members.lookup keyword = some (.obj entries) → entries.lookup name = some node →
      SchemaAt steps node part → SchemaAt (.member keyword :: .member name :: steps) (.obj members) part
  | listed {keyword : String} {i : Nat} {members : List (String × Json)} {nodes : List Json} {node part : Json}
      {steps : List Step} : keyword ∈ listKeywords → members.lookup keyword = some (.arr nodes) →
      nodes[i]? = some node → SchemaAt steps node part →
      SchemaAt (.member keyword :: .item i :: steps) (.obj members) part
  | value {keyword : String} {members : List (String × Json)} {node part : Json} {steps : List Step} :
      IsSchemaValue keyword node → members.lookup keyword = some node → SchemaAt steps node part →
      SchemaAt (.member keyword :: steps) (.obj members) part
  | dependency {name : String} {members entries : List (String × Json)} {node part : Json} {steps : List Step} :
      members.lookup "dependencies" = some (.obj entries) → entries.lookup name = some node → ¬ node.isArray →
      SchemaAt steps node part → SchemaAt (.member "dependencies" :: .member name :: steps) (.obj members) part

/-- The schema itself lists names of required members. -/
def HasRequirement (node : Json) : Prop :=
  (∃ names, node.get? "required" = some (.arr names)) ∨
    ∃ entries name names, node.get? "dependencies" = some (.obj entries) ∧ entries.lookup name = some (.arr names)

/-- What is left of the value of a keyword: schemas without their requirements in the places of the schemas, without
the dependencies that are lists, and the value as it is where the keyword or the form of the value has no schemas. -/
inductive KeptValue (keyword : String) : Json → Json → Prop
  | named (entries : List (String × Json)) : keyword ∈ nameKeywords →
      KeptValue keyword (.obj entries) (.obj (entries.map fun entry => (entry.1, strip entry.2)))
  | listed (nodes : List Json) : keyword ∈ listKeywords → KeptValue keyword (.arr nodes) (.arr (nodes.map strip))
  | value (node : Json) : IsSchemaValue keyword node → KeptValue keyword node (strip node)
  | dependencies (entries : List (String × Json)) : keyword = "dependencies" →
      KeptValue keyword (.obj entries)
        (.obj ((entries.filter fun entry => !entry.2.isArray).map fun entry => (entry.1, strip entry.2)))
  | noNames (v : Json) : keyword ∈ nameKeywords ∨ keyword = "dependencies" → ¬ v.isObject → KeptValue keyword v v
  | data (v : Json) : keyword ∉ nameKeywords ++ listKeywords ++ schemaKeywords ++ ["dependencies"] →
      KeptValue keyword v v

/-- The member is a list of required names. -/
def isRequiredList (member : String × Json) : Bool := member.1 = "required" && member.2.isArray

section Values

variable {keyword : String}

theorem strip_of_not_isObject {v : Json} (h : ¬ v.isObject) : strip v = v := by
  cases v with
  | obj members => exact absurd rfl h
  | _ => simp [strip]

theorem ofKeyword_eq_byName (h : keyword ∈ nameKeywords) : Nesting.ofKeyword keyword = .byName := by
  revert keyword
  decide

theorem ofKeyword_eq_listOrOne (h : keyword ∈ listKeywords) : Nesting.ofKeyword keyword = .listOrOne := by
  revert keyword
  decide

theorem ofKeyword_eq_one (h : keyword ∈ schemaKeywords) : Nesting.ofKeyword keyword = .one := by
  revert keyword
  decide

theorem ofKeyword_eq_data (h : keyword ∉ nameKeywords ++ listKeywords ++ schemaKeywords ++ ["dependencies"]) :
    Nesting.ofKeyword keyword = .data := by
  unfold Nesting.ofKeyword
  simp only [nameKeywords, listKeywords, schemaKeywords, List.mem_append, List.mem_cons, List.not_mem_nil, or_false,
    not_or] at h
  simp [h]

theorem stripAt_named (h : keyword ∈ nameKeywords) (entries : List (String × Json)) :
    stripAt keyword (.obj entries) = .obj (entries.map fun entry => (entry.1, strip entry.2)) := by
  simp only [stripAt, ofKeyword_eq_byName h, stripNamed_eq_map]

theorem stripAt_listed (h : keyword ∈ listKeywords) (nodes : List Json) :
    stripAt keyword (.arr nodes) = .arr (nodes.map strip) := by
  simp only [stripAt, ofKeyword_eq_listOrOne h, if_true, stripItems_eq_map]

theorem stripAt_dependencies (entries : List (String × Json)) :
    stripAt "dependencies" (.obj entries) =
      .obj ((entries.filter fun entry => !entry.2.isArray).map fun entry => (entry.1, strip entry.2)) := by
  rw [← stripDependencies_eq_map]
  simp only [stripAt, show Nesting.ofKeyword "dependencies" = .dependencies by decide]

theorem stripAt_value {v : Json} (h : IsSchemaValue keyword v) : stripAt keyword v = strip v := by
  rcases h with hone | ⟨hlist, harray⟩
  · cases v <;> simp [stripAt, strip, ofKeyword_eq_one hone]
  · cases v with
    | arr nodes => exact absurd rfl harray
    | _ => simp [stripAt, strip, ofKeyword_eq_listOrOne hlist]

theorem stripAt_of_not_isObject (h : keyword ∈ nameKeywords ∨ keyword = "dependencies") {v : Json}
    (hv : ¬ v.isObject) : stripAt keyword v = v := by
  have hkeyword : Nesting.ofKeyword keyword ≠ .listOrOne := by
    rcases h with hname | rfl
    · rw [ofKeyword_eq_byName hname]
      decide
    · decide
  cases v with
  | obj members => exact absurd rfl hv
  | arr nodes => rw [stripAt, if_neg hkeyword]
  | _ => simp [stripAt]

/-- Every keyword and every form of its value is of one of the kinds. -/
theorem keptValue_stripAt (keyword : String) (v : Json) : KeptValue keyword v (stripAt keyword v) := by
  by_cases hname : keyword ∈ nameKeywords
  · by_cases hobject : v.isObject
    · cases v <;> cases hobject
      rw [stripAt_named hname]
      exact .named _ hname
    · rw [stripAt_of_not_isObject (.inl hname) hobject]
      exact .noNames v (.inl hname) hobject
  by_cases hlist : keyword ∈ listKeywords
  · by_cases harray : v.isArray
    · cases v <;> cases harray
      rw [stripAt_listed hlist]
      exact .listed _ hlist
    · rw [stripAt_value (.inr ⟨hlist, harray⟩)]
      exact .value v (.inr ⟨hlist, harray⟩)
  by_cases hone : keyword ∈ schemaKeywords
  · rw [stripAt_value (.inl hone)]
    exact .value v (.inl hone)
  by_cases hdependencies : keyword = "dependencies"
  · subst hdependencies
    by_cases hobject : v.isObject
    · cases v <;> cases hobject
      rw [stripAt_dependencies]
      exact .dependencies _ rfl
    · rw [stripAt_of_not_isObject (.inr rfl) hobject]
      exact .noNames v (.inr rfl) hobject
  · have hdata : keyword ∉ nameKeywords ++ listKeywords ++ schemaKeywords ++ ["dependencies"] := by
      simp [hname, hlist, hone, hdependencies]
    rw [stripAt_data (ofKeyword_eq_data hdata)]
    exact .data v hdata

theorem isArray_stripAt (keyword : String) (v : Json) : (stripAt keyword v).isArray = v.isArray := by
  have h := keptValue_stripAt keyword v
  generalize stripAt keyword v = kept at h
  cases h with
  | value => exact isArray_strip v
  | _ => rfl

/-- The members that are left, in their order. -/
theorem stripMembers_eq_map (members : List (String × Json)) :
    stripMembers members = (members.filter fun member => !isRequiredList member).map
      fun member => (member.1, stripAt member.1 member.2) := by
  induction members with
  | nil => rfl
  | cons member rest ih =>
    obtain ⟨keyword, v⟩ := member
    rw [stripMembers, ih, List.filter_cons, isRequiredList]
    cases decide (keyword = "required") && v.isArray <;> rfl

theorem ne_required_of_mem_nameKeywords (h : keyword ∈ nameKeywords) : keyword ≠ "required" := by
  rintro rfl
  revert h
  decide

theorem ne_required_of_mem_listKeywords (h : keyword ∈ listKeywords) : keyword ≠ "required" := by
  rintro rfl
  revert h
  decide

theorem IsSchemaValue.ne_required {v : Json} (h : IsSchemaValue keyword v) : keyword ≠ "required" := by
  rcases h with hone | ⟨hlist, _⟩
  · rintro rfl
    revert hone
    decide
  · exact ne_required_of_mem_listKeywords hlist

theorem IsSchemaValue.strip {v : Json} (h : IsSchemaValue keyword v) :
    IsSchemaValue keyword (Requirement.strip v) := by
  rw [IsSchemaValue, isArray_strip]
  exact h

end Values

section Places

variable {steps : List Step} {S part : Json}

theorem lookup_filter_of_not_isArray {entries : List (String × Json)} {name : String} {node : Json}
    (h : entries.lookup name = some node) (hnode : ¬ node.isArray) :
    (entries.filter fun entry => !entry.2.isArray).lookup name = some node := by
  obtain ⟨before, after, rfl, hbefore⟩ := List.lookup_eq_some_iff.mp h
  rw [List.filter_append, List.filter_cons_of_pos (by simpa using hnode)]
  refine List.lookup_eq_some_iff.mpr ⟨_, _, rfl, fun entry hentry => hbefore entry (List.mem_of_mem_filter hentry)⟩

/-- Steps to a schema lead to the schema without its requirements in what is left of the whole. -/
theorem SchemaAt.strip (h : SchemaAt steps S part) : SchemaAt steps (strip S) (Requirement.strip part) := by
  have hlookup {members : List (String × Json)} {keyword : String} {v : Json} (hrequired : keyword ≠ "required")
      (h : members.lookup keyword = some v) : (stripMembers members).lookup keyword = some (stripAt keyword v) := by
    rw [lookup_stripMembers hrequired, h, Option.map_some]
  induction h with
  | here v => exact .here _
  | @named keyword name members entries node part _ hkeyword hentries hnode _ ih =>
    have hkept : (stripMembers members).lookup keyword =
        some (.obj (entries.map fun entry => (entry.1, Requirement.strip entry.2))) := by
      rw [hlookup (ne_required_of_mem_nameKeywords hkeyword) hentries, stripAt_named hkeyword]
    rw [Requirement.strip]
    refine .named hkeyword hkept ?_ ih
    rw [lookup_map_values, hnode, Option.map_some]
  | @listed keyword i members nodes node part _ hkeyword hnodes hnode _ ih =>
    have hkept : (stripMembers members).lookup keyword = some (.arr (nodes.map Requirement.strip)) := by
      rw [hlookup (ne_required_of_mem_listKeywords hkeyword) hnodes, stripAt_listed hkeyword]
    rw [Requirement.strip]
    refine .listed hkeyword hkept ?_ ih
    rw [List.getElem?_map, hnode, Option.map_some]
  | @value keyword members node part _ hkeyword hnode _ ih =>
    have hkept : (stripMembers members).lookup keyword = some (Requirement.strip node) := by
      rw [hlookup hkeyword.ne_required hnode, stripAt_value hkeyword]
    rw [Requirement.strip]
    exact .value hkeyword.strip hkept ih
  | @dependency name members entries node part _ hentries hnode harray _ ih =>
    have hkept : (stripMembers members).lookup "dependencies" = some (.obj ((entries.filter
        fun entry => !entry.2.isArray).map fun entry => (entry.1, Requirement.strip entry.2))) := by
      rw [hlookup (by decide) hentries, stripAt_dependencies]
    rw [Requirement.strip]
    refine .dependency hkept ?_ ?_ ih
    · rw [lookup_map_values, lookup_filter_of_not_isArray hnode harray, Option.map_some]
    · rwa [isArray_strip]

theorem SchemaAt.along (h : SchemaAt steps S part) : S.along? steps = some part := by
  induction h with
  | here v => simp [along?]
  | named _ hentries hnode _ ih => rw [along?, hentries, Option.bind_some, along?, hnode, Option.bind_some, ih]
  | listed _ hnodes hnode _ ih => rw [along?, hnodes, Option.bind_some, along?, hnode, Option.bind_some, ih]
  | value _ hnode _ ih => rw [along?, hnode, Option.bind_some, ih]
  | dependency hentries hnode _ _ ih =>
    rw [along?, hentries, Option.bind_some, along?, hnode, Option.bind_some, ih]

/-- The schema stands at the same pointer in what is left, without its requirements. -/
theorem SchemaAt.pointer? (h : SchemaAt steps S part) {pointer : String} {tokens : List String}
    (hpath : Pointer.path? pointer = some tokens) (hnames : List.Forall₂ Step.IsNamedBy steps tokens) :
    S.pointer? pointer = some part ∧ (Requirement.strip S).pointer? pointer = some (Requirement.strip part) := by
  rw [pointer?_eq, pointer?_eq, hpath]
  exact ⟨follow_of_along hnames h.along, follow_of_along hnames h.strip.along⟩

end Places

section Members

variable {keyword : String} {members : List (String × Json)}

/-- All members but lists of required names are left, in their order, with what is left of their values. -/
theorem exists_strip_obj (members : List (String × Json)) : ∃ kept, strip (.obj members) = .obj kept ∧
    List.Forall₂ (fun member left => left.1 = member.1 ∧ KeptValue member.1 member.2 left.2)
      (members.filter fun member => !isRequiredList member) kept := by
  refine ⟨_, by rw [strip, stripMembers_eq_map], ?_⟩
  rw [List.forall₂_map_right_iff, List.forall₂_same]
  exact fun member _ => ⟨rfl, keptValue_stripAt member.1 member.2⟩

/-- A schema that loses nothing has no requirement of its own. -/
theorem not_hasRequirement_of_strip {part : Json} (h : strip part = part) : ¬ HasRequirement part := by
  cases part with
  | obj members =>
    rw [strip, Json.obj.injEq] at h
    rintro (⟨names, hnames⟩ | ⟨entries, name, names, hentries, hnames⟩)
    · have hmem : ("required", .arr names) ∈ stripMembers members := by
        rw [h]
        exact mem_of_lookup hnames
      rw [stripMembers_eq_map, List.mem_map] at hmem
      obtain ⟨member, hmember, hsame⟩ := hmem
      obtain ⟨hkeyword, hvalue⟩ := Prod.mk.inj hsame
      have harray : member.2.isArray = true := by
        rw [← isArray_stripAt member.1, hvalue]
        rfl
      have hkept := (List.mem_filter.mp hmember).2
      simp [isRequiredList, hkeyword, harray] at hkept
    · have hlookup := lookup_stripMembers (show "dependencies" ≠ "required" by decide) members
      rw [h, show members.lookup "dependencies" = some (.obj entries) from hentries, Option.map_some,
        stripAt_dependencies, Option.some.injEq, Json.obj.injEq] at hlookup
      have hmem := mem_of_lookup hnames
      rw [hlookup, List.mem_map] at hmem
      obtain ⟨entry, hentry, hsame⟩ := hmem
      have harray : entry.2.isArray = true := by
        rw [← isArray_strip, (Prod.mk.inj hsame).2]
        rfl
      have hkept := (List.mem_filter.mp hentry).2
      simp [harray] at hkept
  | _ =>
    rintro (⟨names, hnames⟩ | ⟨entries, name, names, hentries, hnames⟩)
    · cases hnames
    · cases hentries

end Members

section Idempotence

variable {keyword : String} {v kept : Json}

/-- What is left of the value of a keyword loses nothing more, if this is so for the schemas inside the value. -/
theorem KeptValue.stripAt_eq (h : KeptValue keyword v kept)
    (ih : ∀ part, part = v ∨ part ∈ v.contents → strip (strip part) = strip part) : stripAt keyword kept = kept := by
  have hentry {entries : List (String × Json)} {entry : String × Json} (hv : v = .obj entries)
      (hmem : entry ∈ entries) : strip (strip entry.2) = strip entry.2 := by
    refine ih _ (.inr ?_)
    rw [hv, contents]
    exact mem_memberContents hmem
  cases h with
  | named entries hkeyword =>
    rw [stripAt_named hkeyword, List.map_map]
    congr 1
    refine List.map_congr_left fun entry hmem => ?_
    rw [Function.comp_apply, hentry rfl hmem]
  | listed nodes hkeyword =>
    rw [stripAt_listed hkeyword, List.map_map]
    congr 1
    refine List.map_congr_left fun node hmem => ih node (.inr ?_)
    rw [contents]
    exact mem_itemContents hmem
  | value _ hkeyword => rw [stripAt_value hkeyword.strip, ih v (.inl rfl)]
  | dependencies entries hkeyword =>
    subst hkeyword
    have hkeeps : ∀ entry ∈ (entries.filter fun entry => !entry.2.isArray).map fun entry => (entry.1, strip entry.2),
        (!entry.2.isArray) = true := by
      rw [List.forall_mem_map]
      intro entry hmem
      rw [isArray_strip]
      exact (List.mem_filter.mp hmem).2
    rw [stripAt_dependencies, List.filter_eq_self.mpr hkeeps, List.map_map]
    congr 1
    refine List.map_congr_left fun entry hmem => ?_
    rw [Function.comp_apply, hentry rfl (List.mem_of_mem_filter hmem)]
  | noNames _ hkeyword hobject => exact stripAt_of_not_isObject hkeyword hobject
  | data _ hkeyword => exact stripAt_data (ofKeyword_eq_data hkeyword) v

/-- What is left of a schema has no requirements to lose. -/
theorem strip_strip (S : Json) : strip (strip S) = strip S := by
  induction S using contents_induction with
  | h S ih =>
    cases S with
    | obj members =>
      have hkeeps : ∀ member ∈ stripMembers members, (!isRequiredList member) = true := by
        rw [stripMembers_eq_map, List.forall_mem_map]
        intro member hmem
        rw [isRequiredList, isArray_stripAt]
        exact (List.mem_filter.mp hmem).2
      have hvalue {member : String × Json} (hmem : member ∈ members) :
          stripAt member.1 (stripAt member.1 member.2) = stripAt member.1 member.2 := by
        have hinside : member.2 ∈ (Json.obj members).contents := by
          rw [contents]
          exact mem_memberContents hmem
        refine (keptValue_stripAt member.1 member.2).stripAt_eq fun part hpart => ih part ?_
        rcases hpart with rfl | hpart
        · exact hinside
        · exact contents_trans _ hinside hpart
      rw [strip, strip, stripMembers_eq_map (stripMembers members), List.filter_eq_self.mpr hkeeps,
        stripMembers_eq_map, List.map_map]
      congr 1
      refine List.map_congr_left fun member hmem => ?_
      rw [Function.comp_apply, hvalue (List.mem_of_mem_filter hmem)]
    | _ => simp [strip]

end Idempotence

/-- No schema at any of the places has a requirement. -/
def IsFree (S : Json) : Prop := ∀ steps part, SchemaAt steps S part → ¬ HasRequirement part

section Identity

variable {keyword : String} {S v kept : Json} {members : List (String × Json)}

theorem isFree_of_strip (h : strip S = S) : IsFree S := by
  intro steps part hpart
  have hsame := hpart.strip.along
  rw [h, hpart.along, Option.some.injEq] at hsame
  exact not_hasRequirement_of_strip hsame.symm

/-- Nothing is lost of a value in a schema that has no requirement at any place, if this is so for the schemas inside
the value. -/
theorem KeptValue.eq_of_isFree (h : KeptValue keyword v kept) (hlookup : members.lookup keyword = some v)
    (hnames : v.hasDistinctNames) (hfree : IsFree (.obj members))
    (ih : ∀ part, part = v ∨ part ∈ v.contents → part.hasDistinctNames → IsFree part → strip part = part) :
    kept = v := by
  have hentry {entries : List (String × Json)} {entry : String × Json} (hv : v = .obj entries)
      (hmem : entry ∈ entries) (hpart : IsFree entry.2) : (entry.1, strip entry.2) = entry := by
    subst hv
    have hinside : entry.2 ∈ (Json.obj entries).contents := by
      rw [contents]
      exact mem_memberContents hmem
    rw [ih _ (.inr hinside) (hasDistinctNames_obj hnames hmem) hpart]
  cases h with
  | named entries hkeyword =>
    rw [Json.obj.injEq]
    refine (List.map_congr_left fun entry hmem => ?_).trans (List.map_id _)
    have hnode := lookup_of_mem (nodup_names hnames) hmem
    exact hentry rfl hmem fun steps part hpart => hfree _ part (.named hkeyword hlookup hnode hpart)
  | listed nodes hkeyword =>
    rw [Json.arr.injEq]
    refine (List.map_congr_left fun node hmem => ?_).trans (List.map_id _)
    have hinside : node ∈ (Json.arr nodes).contents := by
      rw [contents]
      exact mem_itemContents hmem
    obtain ⟨i, hi⟩ := List.mem_iff_getElem?.mp hmem
    exact ih node (.inr hinside) (hasDistinctNames_arr hnames hmem)
      fun steps part hpart => hfree _ part (.listed hkeyword hlookup hi hpart)
  | value _ hkeyword =>
    exact ih v (.inl rfl) hnames fun steps part hpart => hfree _ part (.value hkeyword hlookup hpart)
  | dependencies entries hkeyword =>
    subst hkeyword
    have hnode {entry : String × Json} (hmem : entry ∈ entries) := lookup_of_mem (nodup_names hnames) hmem
    have hschemas : ∀ entry ∈ entries, ¬ entry.2.isArray := by
      rintro ⟨name, node⟩ hmem harray
      cases node <;> cases harray
      exact hfree _ _ (.here _) (.inr ⟨entries, name, _, hlookup, hnode hmem⟩)
    rw [Json.obj.injEq, List.filter_eq_self.mpr fun entry hmem => by simpa using hschemas entry hmem]
    refine (List.map_congr_left fun entry hmem => ?_).trans (List.map_id _)
    exact hentry rfl hmem fun steps part hpart =>
      hfree _ part (.dependency hlookup (hnode hmem) (hschemas entry hmem) hpart)
  | noNames | data => rfl

/-- A schema without requirements at any place is what is left of it. -/
theorem strip_of_isFree (hnames : S.hasDistinctNames) (hfree : IsFree S) : strip S = S := by
  induction S using contents_induction with
  | h S ih =>
    cases S with
    | obj members =>
      have hmember {member : String × Json} (hmem : member ∈ members) :
          members.lookup member.1 = some member.2 := lookup_of_mem (nodup_names hnames) hmem
      have hkeeps : ∀ member ∈ members, (!isRequiredList member) = true := by
        rintro ⟨keyword, v⟩ hmem
        rw [Bool.not_eq_true', isRequiredList, Bool.and_eq_false_imp, decide_eq_true_eq]
        rintro rfl
        cases v with
        | arr names => exact absurd (.inl ⟨names, hmember hmem⟩) (hfree _ _ (.here _))
        | _ => rfl
      rw [strip, stripMembers_eq_map, List.filter_eq_self.mpr hkeeps, Json.obj.injEq]
      refine (List.map_congr_left fun member hmem => ?_).trans (List.map_id _)
      have hinside : member.2 ∈ (Json.obj members).contents := by
        rw [contents]
        exact mem_memberContents hmem
      have hkept := keptValue_stripAt member.1 member.2
      refine Prod.ext rfl (hkept.eq_of_isFree (hmember hmem) (hasDistinctNames_obj hnames hmem) hfree ?_)
      rintro part (rfl | hpart)
      · exact ih _ hinside
      · exact ih part (contents_trans _ hinside hpart)
    | _ => simp [strip]

end Identity

/-- The schema loses its requirements at all places, and nothing else. -/
structure LosesRequirements (S : Json) : Prop where
  places : ∀ {steps part}, SchemaAt steps S part → SchemaAt steps (strip S) (strip part)
  pointers : ∀ {steps part pointer tokens}, SchemaAt steps S part → Pointer.path? pointer = some tokens →
    List.Forall₂ Step.IsNamedBy steps tokens →
      S.pointer? pointer = some part ∧ (strip S).pointer? pointer = some (strip part)
  isFree : IsFree (strip S)
  members : ∀ {steps members}, SchemaAt steps S (.obj members) → ∃ kept, SchemaAt steps (strip S) (.obj kept) ∧
    List.Forall₂ (fun member left => left.1 = member.1 ∧ KeptValue member.1 member.2 left.2)
      (members.filter fun member => !isRequiredList member) kept
  others : ∀ {steps part}, SchemaAt steps S part → ¬ part.isObject → SchemaAt steps (strip S) part
  strip_strip : strip (strip S) = strip S
  strip_eq_iff : S.hasDistinctNames → (strip S = S ↔ IsFree S)

/-- Every document loses its requirements where schemas stand in it, malformed parts included. -/
theorem losesRequirements (S : Json) : LosesRequirements S where
  places h := h.strip
  pointers h := h.pointer?
  isFree := isFree_of_strip (strip_strip S)
  members {steps members} h := by
    obtain ⟨kept, hkept, hmembers⟩ := exists_strip_obj members
    exact ⟨kept, hkept ▸ h.strip, hmembers⟩
  others h hobject := strip_of_not_isObject hobject ▸ h.strip
  strip_strip := strip_strip S
  strip_eq_iff hnames := ⟨isFree_of_strip, strip_of_isFree hnames⟩

/-- The same word as a keyword, as the name of a field, as a dependency and in data. -/
example :
    strip (.obj [("required", .arr [.str "a"]), ("properties", .obj [("required", .obj [("required", .bool true)])]),
      ("dependencies", .obj [("a", .arr [.str "b"]), ("required", .obj [("required", .arr [])])]),
      ("const", .obj [("required", .arr [.str "a"])])]) =
    .obj [("properties", .obj [("required", .obj [("required", .bool true)])]),
      ("dependencies", .obj [("required", .obj [])]), ("const", .obj [("required", .arr [.str "a"])])] := by
  decide +kernel

end Requirement
end SchemaBound
