import SchemaBound.Blueprint.Place
import SchemaBound.Proofs.Coercion.Guidance

/-! Conversion next to a judgement. Both go through a document, but not everywhere by the same schemas: conversion picks
the alternative whose declared type fits, has schemas for items under `prefixItems`, and one for further members beside
those under patterns. Where these admit what is judged, nothing that is admitted is converted. -/
namespace SchemaBound

namespace Json

variable {node part whole w : Json}

theorem IsPartOf.childAt (h : node.IsPartOf whole) {token : String} (hpart : node.childAt? token = some part) :
    part.IsPartOf whole := by
  unfold childAt? at hpart
  cases node with
  | obj members => exact h.member (mem_of_lookup hpart)
  | arr items =>
    obtain ⟨i, _, hi⟩ := Option.bind_eq_some_iff.mp hpart
    exact h.item (List.mem_of_getElem? hi)
  | _ => cases hpart

theorem IsPartOf.follow {tokens : List String} (h : node.IsPartOf whole) (hpart : node.follow? tokens = some part) :
    part.IsPartOf whole := by
  induction tokens generalizing node with
  | nil =>
    obtain rfl := Option.some.inj hpart
    exact h
  | cons token rest ih =>
    obtain ⟨child, hchild, hpart⟩ := Option.bind_eq_some_iff.mp hpart
    exact ih (h.childAt hchild) hpart

/-- What a pointer addresses is part of the whole. -/
theorem isPartOf_of_pointer {pointer : String} (h : whole.pointer? pointer = some part) : part.IsPartOf whole := by
  unfold pointer? at h
  split at h
  · obtain rfl := Option.some.inj h
    exact .inl rfl
  · obtain ⟨tokens, _, h⟩ := Option.bind_eq_some_iff.mp h
    have hself : whole.IsPartOf whole := .inl rfl
    exact hself.follow h

end Json

/-- While the value is judged by a document, the schema is asked about a part of it and admits it. -/
inductive Interpretation.Passes {Context : Type} (I : Interpretation Context) (sheet v : Json) :
    Context → Json → Json → Prop
  | start : Passes I sheet v (I.start sheet) sheet v
  | part {c : Context} {members : List (String × Json)} {way : Polarity} {node x z : Json} :
      Passes I sheet v c (.obj members) x → members.lookup "$ref" = none →
      Poses (I.draft c) I.occurs members way x node z → I.admits (I.inside c members) node z →
      Passes I sheet v (I.inside c members) node z
  | target {c d : Context} {members : List (String × Json)} {reference : String} {node x : Json} :
      Passes I sheet v c (.obj members) x → members.lookup "$ref" = some (.str reference) →
      I.follow c reference = some (d, node) → Passes I sheet v d node x

theorem Interpretation.Passes.isMet {Context : Type} {I : Interpretation Context}
    {inspect : Json → Except SchemaError Unit} {judge : Json → Json → List Violation} {sheet v node x : Json}
    {c : Context} (hpasses : I.Passes sheet v c node x) (h : I.IsDraft7 inspect judge)
    (hstart : I.IsMet (I.start sheet) sheet v) : I.IsMet c node x := by
  induction hpasses with
  | start => exact hstart
  | part _ hnone hposes hadmits ih => exact ih.part h hnone hposes hadmits
  | target _ href hfollow ih => exact ih.target h href hfollow

namespace Coercion

variable {Context : Type} (I : Interpretation Context) (document : Json) (options : Options) (v : Json)

/-- The schema has passed the part while the value was judged by the document, in the form that it has there. -/
def HasPassed (node x : Json) : Prop := ∃ c, I.Passes (options.form document) v c (options.form node) x

/-- A schema that conversion goes by and a judgement need not: it admits the value too, or converts nothing in it. -/
def IsHarmless (node x : Json) : Prop :=
  HasPassed I document options v node x ∨ ∀ depth ≤ maxDepth, walk document depth node x = x

/-- A pattern for members of the schema occurs in the name. -/
def IsMatched (members : List (String × Json)) (name : String) : Prop :=
  ∃ patterns source node, members.lookup "patternProperties" = some (.obj patterns) ∧ (source, node) ∈ patterns ∧
    I.occurs source name

/-- References of schemas that have passed something lead to the places that they name in the document. -/
def Mirrors : Prop :=
  ∀ {c members x reference target}, I.Passes (options.form document) v c (.obj members) x →
    members.lookup "$ref" = some (.str reference) → Place.target? document reference = some target →
    ∃ d, I.follow c reference = some (d, options.form target.node)

/-- Where a part of the value is admitted by a schema of the document, conversion goes on by schemas that admit it as
well, or that convert nothing in it. -/
structure IsSteady : Prop where
  /-- References lead both to the same schemas. -/
  mirrors : Mirrors I document options v
  /-- Alternatives: the first one of a declared type that the value has. -/
  union : ∀ {members x keyword}, (Json.obj members).IsPartOf document → members.lookup "$ref" = none →
    HasPassed I document options v (.obj members) x → keyword = "anyOf" ∨ keyword = "oneOf" →
    (∃ sub, ((listed (.obj members) keyword).filterMap (resolve? document maxDepth)).find? (acceptsType · x) = some sub ∧
      HasPassed I document options v sub x) ∨
    ∀ depth ≤ maxDepth, pick (resolve? document maxDepth) (walk document depth) x (listed (.obj members) keyword) = x
  /-- Schemas for the first items. -/
  entry : ∀ {members prefixes : _} {items : List Json} {i : Nat} {sub x : Json}, (Json.obj members).IsPartOf document →
    members.lookup "$ref" = none → HasPassed I document options v (.obj members) (.arr items) →
    members.lookup "prefixItems" = some (.arr prefixes) → prefixes[i]? = some sub → items[i]? = some x →
    IsHarmless I document options v sub x
  /-- The schema for further members, for one that a pattern occurs in the name of. -/
  member : ∀ {members data inside name x}, (Json.obj members).IsPartOf document → members.lookup "$ref" = none →
    HasPassed I document options v (.obj members) (.obj data) →
    members.lookup "additionalProperties" = some (.obj inside) →
    (members.lookup "properties").bind (·.get? name) = none → IsMatched I members name → (name, x) ∈ data →
    IsHarmless I document options v (.obj inside) x

variable {I document options v} {inspect : Json → Except SchemaError Unit} {judge : Json → Json → List Violation}
  {node target x z : Json} {members : List (String × Json)}

/-- What conversion takes a schema for is an object in the document. -/
theorem isPartOf_of_resolve {hops : Nat} (h : resolve? document hops node = some target)
    (hnode : node.IsPartOf document) :
    target.IsPartOf document ∧ target.isObject := by
  induction hops generalizing node with
  | zero => cases h
  | succ hops ih =>
    unfold resolve? at h
    split at h
    · split at h
      · obtain ⟨next, hnext, h⟩ := Option.bind_eq_some_iff.mp h
        exact ih h (Json.isPartOf_of_pointer hnext)
      · cases h
    · split at h
      · obtain rfl := Option.some.inj h
        exact ⟨hnode, ‹_›⟩
      · cases h

theorem hasType_of_admits {word : String} {name : TypeName} (hword : TypeName.ofWord? word = some name) {draft : Draft}
    (h : name.admits draft x) : hasType word x := by
  have hfound := List.find?_some hword
  obtain rfl : name.word = word := of_decide_eq_true hfound
  cases name with
  | integer =>
    cases x with
    | num n =>
      have hwhole : n.isWhole := by
        cases n with
        | int k => rfl
        | float y => exact (Bool.and_eq_true_iff.mp h).2
      simp [hasType, TypeName.word, hwhole]
    | _ => cases h
  | _ =>
    cases x with
    | _ => first | rfl | cases h

theorem exists_of_mem_listed {keyword : String} {sub : Json} (h : sub ∈ listed node keyword) :
    ∃ nodes, node.get? keyword = some (.arr nodes) ∧ sub ∈ nodes := by
  unfold listed at h
  cases hlist : node.get? keyword with
  | none => simp [hlist] at h
  | some list =>
    rw [hlist] at h
    cases list with
    | arr nodes => exact ⟨nodes, rfl, h⟩
    | _ => simp [Json.items?] at h

section Steps

variable (h : I.IsDraft7 inspect judge) (hstart : I.IsMet (I.start (options.form document)) (options.form document) v)
include h hstart

theorem HasPassed.exists_met (hpassed : HasPassed I document options v (.obj members) x) :
    ∃ c, I.Passes (options.form document) v c (.obj (options.formMembers members)) x ∧
      I.IsMet c (.obj (options.formMembers members)) x := by
  obtain ⟨c, hpasses⟩ := hpassed
  rw [Options.form_obj] at hpasses
  exact ⟨c, hpasses, hpasses.isMet h hstart⟩

theorem HasPassed.distinct (hpassed : HasPassed I document options v node x) : x.hasDistinctNames := by
  obtain ⟨c, hpasses⟩ := hpassed
  exact (hpasses.isMet h hstart).distinct

/-- What conversion takes a schema for admits what the schema does. -/
theorem HasPassed.resolve (hmirrors : Mirrors I document options v) {hops : Nat}
    (hresolve : resolve? document hops node = some target) (hpassed : HasPassed I document options v node x) :
    HasPassed I document options v target x := by
  induction hops generalizing node with
  | zero => cases hresolve
  | succ hops ih =>
    unfold resolve? at hresolve
    split at hresolve
    · rename_i reference href
      split at hresolve
      · rename_i fragment hfragment
        obtain ⟨next, hnext, hresolve⟩ := Option.bind_eq_some_iff.mp hresolve
        have htarget : Place.target? document reference = some ⟨"#" ++ String.ofList fragment, next⟩ := by
          simp [Place.target?, hfragment, hnext]
        cases node with
        | obj members =>
          obtain ⟨c, hpasses, _⟩ := hpassed.exists_met h hstart
          have hformed : (options.formMembers members).lookup "$ref" = some (.str reference) := by
            rw [Options.lookup_formMembers_data (by decide) (by decide)]
            exact href
          obtain ⟨d, hfollow⟩ := hmirrors hpasses hformed htarget
          exact ih hresolve ⟨d, hpasses.target hformed hfollow⟩
        | _ => cases href
      · cases hresolve
    · split at hresolve
      · obtain rfl := Option.some.inj hresolve
        exact hpassed
      · cases hresolve

/-- It is no reference. -/
theorem HasPassed.noReference {hops : Nat} (hresolve : resolve? document hops node = some (.obj members))
    (hpassed : HasPassed I document options v (.obj members) x) : members.lookup "$ref" = none := by
  obtain ⟨c, _, hmet⟩ := hpassed.exists_met h hstart
  have hform : (options.formMembers members).lookup "$ref" = members.lookup "$ref" :=
    Options.lookup_formMembers_data (by decide) (by decide)
  cases href : members.lookup "$ref" with
  | none => rfl
  | some reference =>
    obtain ⟨text, rfl⟩ := h.isReference hmet.reads (hform.trans href)
    exact absurd href (get_ne_of_resolve hresolve text)

variable (hnone : members.lookup "$ref" = none)
include hnone

theorem HasPassed.part (hpassed : HasPassed I document options v (.obj members) x) {sub : Json}
    (hdemands : ∀ draft, Demands draft I.occurs members x sub z) : HasPassed I document options v sub z := by
  obtain ⟨c, hpasses, hmet⟩ := hpassed.exists_met h hstart
  have href : (options.formMembers members).lookup "$ref" = none := by
    rw [Options.lookup_formMembers_data (by decide) (by decide), hnone]
  have hformed : Demands (I.draft c) I.occurs (options.formMembers members) x (options.form sub) z :=
    Options.demands_formMembers_of_demands (hdemands (I.draft c))
  exact ⟨_, hpasses.part href (.demand hformed) ((hmet.meets h href).1.demands _ _ hformed)⟩

theorem HasPassed.exists_alternative (hpassed : HasPassed I document options v (.obj members) x) {keyword : String}
    (hkeyword : keyword = "anyOf" ∨ keyword = "oneOf") {nodes : List Json}
    (hnodes : members.lookup keyword = some (.arr nodes)) : ∃ node ∈ nodes, HasPassed I document options v node x := by
  obtain ⟨c, hpasses, hmet⟩ := hpassed.exists_met h hstart
  have href : (options.formMembers members).lookup "$ref" = none := by
    rw [Options.lookup_formMembers_data (by decide) (by decide), hnone]
  have hformed : (options.formMembers members).lookup keyword = some (.arr (nodes.map options.form)) :=
    (Options.lookup_formMembers_list (by rcases hkeyword with rfl | rfl <;> decide)).mpr ⟨nodes, hnodes, rfl⟩
  obtain ⟨formed, hmem, ⟨way, hposes⟩, hadmits⟩ := hmet.exists_alternative h href hkeyword hformed
  obtain ⟨node, hnode, rfl⟩ := List.mem_map.mp hmem
  exact ⟨node, hnode, _, hpasses.part href hposes hadmits.admits⟩

/-- A value is of a type that a schema declares which has passed it, if it declares any. -/
theorem HasPassed.acceptsType (hpassed : HasPassed I document options v (.obj members) x) :
    acceptsType (.obj members) x := by
  obtain ⟨c, _, hmet⟩ := hpassed.exists_met h hstart
  have href : (options.formMembers members).lookup "$ref" = none := by
    rw [Options.lookup_formMembers_data (by decide) (by decide), hnone]
  have htype : (options.formMembers members).lookup "type" = members.lookup "type" :=
    Options.lookup_formMembers_data (by decide) (by decide)
  have hget : (Json.obj (options.formMembers members)).get? "type" = (Json.obj members).get? "type" := htype
  have hdeclared : declaredTypes (.obj (options.formMembers members)) = declaredTypes (.obj members) := by
    rw [declaredTypes, declaredTypes, hget]
  unfold Coercion.acceptsType
  rw [Bool.or_eq_true, List.isEmpty_iff, List.any_eq_true]
  cases hnames : members.lookup "type" with
  | none =>
    left
    have hget : (Json.obj members).get? "type" = none := hnames
    rw [declaredTypes, hget]
  | some names =>
    right
    obtain ⟨word, hword, name, hofWord, hname⟩ :=
      hmet.exists_type h href (Option.isSome_of_eq_some (htype.trans hnames))
    exact ⟨word, hdeclared ▸ hword, hasType_of_admits hofWord hname⟩

/-- A string is passed by a schema that declares strings, or no types. -/
theorem HasPassed.coercePrimitive_eq (hpassed : HasPassed I document options v (.obj members) x) :
    coercePrimitive (.obj members) x = x := by
  cases x with
  | str s =>
    have htype := hpassed.acceptsType h hstart hnone
    have hdeclared : (declaredTypes (.obj members)).isEmpty || (declaredTypes (.obj members)).contains "string" := by
      rw [Coercion.acceptsType, Bool.or_eq_true] at htype
      rw [Bool.or_eq_true]
      refine htype.imp_right fun hany => ?_
      obtain ⟨word, hword, hstring⟩ := List.any_eq_true.mp hany
      obtain rfl : word = "string" := of_decide_eq_true hstring
      exact List.contains_iff_mem.mpr hword
    unfold coercePrimitive
    dsimp only
    rw [if_pos hdeclared]
  | _ => rfl

variable (hsteady : IsSteady I document options v) (hnode : (Json.obj members).IsPartOf document)
include hsteady hnode

/-- The schema that conversion has for a member is harmless. -/
theorem IsSteady.isHarmless_member {data : List (String × Json)}
    (hpassed : HasPassed I document options v (.obj members) (.obj data)) {name : String} (hmem : (name, x) ∈ data)
    {sub : Json} (hsub : memberNode? (.obj members) name = some sub) :
    sub.IsPartOf document ∧ IsHarmless I document options v sub x := by
  have hlookup : data.lookup name = some x := Json.lookup_of_mem (Json.nodup_names (hpassed.distinct h hstart)) hmem
  unfold memberNode? at hsub
  split at hsub
  · rename_i declared hdeclared
    obtain rfl := Option.some.inj hsub
    obtain ⟨rules, hrules, hget⟩ := Option.bind_eq_some_iff.mp hdeclared
    refine ⟨(hnode.get hrules).get hget, .inl ?_⟩
    cases rules with
    | obj rules => exact hpassed.part h hstart hnone fun _ => .property hrules hget hlookup
    | _ => cases hget
  · rename_i hundeclared
    obtain ⟨hfurther, hobject⟩ := Option.filter_eq_some_iff.mp hsub
    refine ⟨hnode.get hfurther, ?_⟩
    cases sub with
    | obj inside =>
      by_cases hmatched : IsMatched I members name
      · exact hsteady.member hnode hnone hpassed hfurther hundeclared hmatched hmem
      · left
        refine hpassed.part h hstart hnone fun _ => .further hfurther hmem ⟨fun rules hrules => ?_, ?_⟩
        · have hget : (Json.obj members).get? "properties" = some (.obj rules) := hrules
          rw [hget] at hundeclared
          exact hundeclared
        · exact fun patterns source node hpatterns hsource hoccurs =>
            hmatched ⟨patterns, source, node, hpatterns, hsource, hoccurs⟩
    | _ => cases hobject

/-- The schema that conversion has for an item is harmless. -/
theorem IsSteady.isHarmless_item {items : List Json}
    (hpassed : HasPassed I document options v (.obj members) (.arr items)) {i : Nat} (hi : items[i]? = some x)
    {sub : Json} (hsub : itemNode? (.obj members) i = some sub) :
    sub.IsPartOf document ∧ IsHarmless I document options v sub x := by
  unfold itemNode? at hsub
  split at hsub
  · rename_i first hfirst
    obtain rfl := Option.some.inj hsub
    obtain ⟨prefixes, hprefixes, hget⟩ := Option.bind_eq_some_iff.mp hfirst
    obtain ⟨list, hlist, hprefixes⟩ := Option.bind_eq_some_iff.mp hprefixes
    cases list with
    | arr list =>
      obtain rfl := Option.some.inj hprefixes
      exact ⟨(hnode.get hlist).item (List.mem_of_getElem? hget), hsteady.entry hnode hnone hpassed hlist hget hi⟩
    | _ => cases hprefixes
  · split at hsub
    · rename_i tuple htuple
      split at hsub
      · rename_i entry hentry
        obtain rfl := Option.some.inj hsub
        exact ⟨(hnode.get htuple).item (List.mem_of_getElem? hentry),
          .inl (hpassed.part h hstart hnone fun _ => .entry htuple hentry hi)⟩
      · rename_i hbeyond
        obtain ⟨hfurther, hobject⟩ := Option.filter_eq_some_iff.mp hsub
        refine ⟨hnode.get hfurther, .inl ?_⟩
        have hschema : sub.isSchema := by
          rw [Json.isSchema, hobject, Bool.true_or]
        exact hpassed.part h hstart hnone fun _ =>
          .furtherItem htuple hfurther hschema (List.getElem?_eq_none_iff.mp hbeyond) hi
    · rename_i inside hinside
      obtain rfl := Option.some.inj hsub
      exact ⟨hnode.get hinside,
        .inl (hpassed.part h hstart hnone fun _ => .item hinside rfl (List.mem_of_getElem? hi))⟩
    · cases hsub

end Steps

section Walk

variable {walk : Json → Json → Json}

theorem walkItems_eq_self {index : Nat} {items : List Json}
    (h : ∀ i x sub, items[i]? = some x → itemNode? node (index + i) = some sub → walk sub x = x) :
    walkItems walk node index items = items := by
  induction items generalizing index with
  | nil => rfl
  | cons x rest ih =>
    have hrest : walkItems walk node (index + 1) rest = rest :=
      ih fun i y sub hy hsub => h (i + 1) y sub hy (by rwa [Nat.add_right_comm] at hsub)
    rw [walkItems, hrest]
    split
    · rename_i sub hsub
      rw [h 0 x sub rfl hsub]
    · rfl

theorem walkMembers_eq_self {members : List (String × Json)}
    (h : ∀ name x sub, (name, x) ∈ members → memberNode? node name = some sub → walk sub x = x) :
    walkMembers walk node members = members := by
  induction members with
  | nil => rfl
  | cons member rest ih =>
    obtain ⟨name, x⟩ := member
    have hrest : walkMembers walk node rest = rest :=
      ih fun name y sub hy hsub => h name y sub (List.mem_cons_of_mem _ hy) hsub
    rw [walkMembers, hrest]
    split
    · rename_i sub hsub
      rw [h name x sub List.mem_cons_self hsub]
    · rfl

end Walk

/-- Nothing is converted in a value that is admitted, nor in any part of it that is. -/
theorem IsSteady.walk_eq (hsteady : IsSteady I document options v) (h : I.IsDraft7 inspect judge)
    (hstart : I.IsMet (I.start (options.form document)) (options.form document) v) {depth : Nat}
    (hdepth : depth ≤ maxDepth + 1) (hnode : node.IsPartOf document) (hpassed : HasPassed I document options v node x) :
    walk document depth node x = x := by
  -- On the depth: what the walk does at one schema is left to those below it, which are harmless or pass the part.
  induction depth generalizing node x with
  | zero => rfl
  | succ depth ih =>
    have hdepth' : depth ≤ maxDepth := Nat.le_of_succ_le_succ hdepth
    rw [walk]
    split
    · rfl
    rename_i target htarget
    obtain ⟨hpart, hobject⟩ := isPartOf_of_resolve htarget hnode
    have hpassed := hpassed.resolve h hstart hsteady.mirrors htarget
    cases target with
    | obj members =>
      have hnone := hpassed.noReference h hstart htarget
      have hall : (listed (.obj members) "allOf").foldl (fun x sub => walk document depth sub x) x = x := by
        refine List.foldlRecOn (motive := fun y => y = x) _ _ rfl fun y hy sub hsub => ?_
        obtain ⟨nodes, hnodes, hmem⟩ := exists_of_mem_listed hsub
        rw [hy]
        exact ih (Nat.le_succ_of_le hdepth') ((hpart.get hnodes).item hmem)
          (hpassed.part h hstart hnone fun _ => .allOf hnodes hmem)
      have hpick {keyword : String} (hkeyword : keyword = "anyOf" ∨ keyword = "oneOf") :
          pick (resolve? document maxDepth) (walk document depth) x (listed (.obj members) keyword) = x := by
        rcases hsteady.union hpart hnone hpassed hkeyword with ⟨sub, hfind, hsub⟩ | hsame
        · obtain ⟨alternative, halternative, hresolve⟩ := List.mem_filterMap.mp (List.mem_of_find?_eq_some hfind)
          obtain ⟨nodes, hnodes, hmem⟩ := exists_of_mem_listed halternative
          obtain ⟨hsubPart, _⟩ := isPartOf_of_resolve hresolve ((hpart.get hnodes).item hmem)
          unfold pick
          dsimp only
          rw [hfind]
          exact ih (Nat.le_succ_of_le hdepth') hsubPart hsub
        · exact hsame depth hdepth'
      have hbelow {sub y : Json} (hsub : sub.IsPartOf document ∧ IsHarmless I document options v sub y) :
          walk document depth sub y = y := by
        obtain ⟨hsubPart, hadmits | hsame⟩ := hsub
        · exact ih (Nat.le_succ_of_le hdepth') hsubPart hadmits
        · exact hsame depth hdepth'
      dsimp only
      rw [hpassed.coercePrimitive_eq h hstart hnone, hall, hpick (.inl rfl), hpick (.inr rfl)]
      cases x with
      | arr items =>
        rw [walkInside, walkItems_eq_self fun i y sub hi hsub => ?_]
        rw [Nat.zero_add] at hsub
        exact hbelow (hsteady.isHarmless_item h hstart hnone hpart hpassed hi hsub)
      | obj data =>
        rw [walkInside, walkMembers_eq_self fun name y sub hmem hsub => ?_]
        exact hbelow (hsteady.isHarmless_member h hstart hnone hpart hpassed hmem hsub)
      | _ => rfl
    | _ => cases hobject

end Coercion
end SchemaBound
