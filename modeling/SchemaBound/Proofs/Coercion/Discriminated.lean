import Mathlib.Data.List.Pairwise
import SchemaBound.Proofs.Check.Ending
import SchemaBound.Proofs.Coercion.Steadiness
import SchemaBound.Proofs.Draft7.Engines

/-! Checks with conversion. They accept what checks without it accept, as long as conversion is guided: where alternatives
are told apart by their declared types, for one, nothing is converted that is accepted. -/
namespace SchemaBound

namespace Coercion

section Computation

variable {document node x : Json} {options : Options} {keyword : String}

/-- There are values of both types. -/
def sharesValues (name other : String) : Bool :=
  name = other || (name = "integer" && other = "number") || (name = "number" && other = "integer")

theorem sharesValues_of_hasType {name other : String} (h : hasType name x) (h' : hasType other x) :
    sharesValues name other := by
  cases x <;> simp [hasType] at h h' <;> grind [sharesValues]

/-- No value is of a declared type of both. -/
def areApart (node other : Json) : Bool :=
  (declaredTypes node).all fun name => (declaredTypes other).all fun name' => !sharesValues name name'

theorem not_acceptsType_of_areApart {other : Json} (h : areApart node other) (hnode : declaredTypes node ≠ [])
    (hother : declaredTypes other ≠ []) : ¬ (acceptsType node x ∧ acceptsType other x) := by
  rintro ⟨hx, hx'⟩
  simp only [acceptsType, Bool.or_eq_true, List.isEmpty_iff, hnode, hother, false_or, List.any_eq_true] at hx hx'
  obtain ⟨name, hname, htype⟩ := hx
  obtain ⟨name', hname', htype'⟩ := hx'
  simp only [areApart, List.all_eq_true, Bool.not_eq_true'] at h
  exact Bool.eq_false_iff.mp (h name hname name' hname') (sharesValues_of_hasType htype htype')

theorem listed_eq {nodes : List Json} (h : node.get? keyword = some (.arr nodes)) : listed node keyword = nodes := by
  unfold listed
  rw [h]
  rfl

/-- All alternatives declare types, and no two of them the type of one value. -/
def isDiscriminated (document node : Json) (keyword : String) : Bool :=
  (listed node keyword).all (fun alternative =>
    ((resolve? document maxDepth alternative).map fun sub => !(declaredTypes sub).isEmpty).getD false) &&
  decide (((listed node keyword).filterMap (resolve? document maxDepth)).Pairwise fun sub other => areApart sub other)

/-- Nodes in the document tell their alternatives apart, and hold no other schemas that a judgement need not apply. -/
def isDiscriminating (document : Json) : Bool :=
  (document :: document.contents).all fun node =>
    isDiscriminated document node "anyOf" && isDiscriminated document node "oneOf" &&
    (node.get? "prefixItems").isNone &&
    ((node.get? "patternProperties").isNone || (node.get? "additionalProperties").isNone)

end Computation

section Steadiness

variable {Context : Type} {I : Interpretation Context} {inspect : Json → Except SchemaError Unit}
  {judge : Json → Json → List Violation} {document v x : Json} {options : Options}

theorem reaches_of_passes {sheet node : Json} {c : Context} (hpasses : I.Passes sheet v c node x) :
    I.Reaches (I.start sheet) sheet c node := by
  induction hpasses with
  | start => exact .refl
  | part _ hnone hposes _ ih => exact ih.tail ⟨_, _, .part hnone hposes⟩
  | target _ href hfollow ih => exact ih.tail ⟨.null, .null, .target href hfollow⟩

theorem mirrors_of_isFaithful
    (hfaithful : I.IsFaithful document options.form (I.start (options.form document)) (options.form document)) :
    Mirrors I document options v := by
  intro c members x reference target hpasses href htarget
  obtain ⟨d, hfollow, _⟩ := hfaithful.leads (reaches_of_passes hpasses) href htarget
  exact ⟨d, hfollow⟩

variable (h : I.IsDraft7 inspect judge)
  (hfaithful : I.IsFaithful document options.form (I.start (options.form document)) (options.form document))
  (hstart : I.IsMet (I.start (options.form document)) (options.form document) v)
include h hfaithful hstart

/-- Of alternatives that are told apart, the one that conversion picks admits what the schema does. -/
theorem exists_find_of_isDiscriminated {members : List (String × Json)} {keyword : String}
    (hnode : (Json.obj members).IsPartOf document) (hnone : members.lookup "$ref" = none)
    (hpassed : HasPassed I document options v (.obj members) x) (hkeyword : keyword = "anyOf" ∨ keyword = "oneOf")
    (hdiscriminated : isDiscriminated document (.obj members) keyword) {nodes : List Json}
    (hnodes : (Json.obj members).get? keyword = some (.arr nodes)) :
    ∃ sub, (nodes.filterMap (resolve? document maxDepth)).find? (acceptsType · x) = some sub ∧
      HasPassed I document options v sub x := by
  unfold isDiscriminated at hdiscriminated
  rw [listed_eq hnodes, Bool.and_eq_true, List.all_eq_true, decide_eq_true_eq] at hdiscriminated
  obtain ⟨htyped, hapart⟩ := hdiscriminated
  have hdeclares {sub : Json} (hsub : sub ∈ nodes.filterMap (resolve? document maxDepth)) : declaredTypes sub ≠ [] := by
    obtain ⟨alternative, halternative, hresolve⟩ := List.mem_filterMap.mp hsub
    have hsome := htyped alternative halternative
    rw [hresolve] at hsome
    simpa using hsome
  -- An alternative that admits the value has a type that the value is of, and no other alternative has one.
  obtain ⟨sub, hsub, hadmits, htype⟩ : ∃ sub ∈ nodes.filterMap (resolve? document maxDepth),
      HasPassed I document options v sub x ∧ acceptsType sub x := by
    obtain ⟨alternative, halternative, hadmits⟩ := hpassed.exists_alternative h hstart hnone hkeyword hnodes
    have hsome := htyped alternative halternative
    cases hresolve : resolve? document maxDepth alternative with
    | none => simp [hresolve] at hsome
    | some sub =>
      have hsub := hadmits.resolve h hstart (mirrors_of_isFaithful hfaithful) hresolve
      obtain ⟨_, hobject⟩ := isPartOf_of_resolve hresolve ((hnode.get hnodes).item halternative)
      refine ⟨sub, List.mem_filterMap.mpr ⟨alternative, halternative, hresolve⟩, hsub, ?_⟩
      cases sub with
      | obj inside => exact hsub.acceptsType h hstart (hsub.noReference h hstart hresolve)
      | _ => cases hobject
  cases hfind : (nodes.filterMap (resolve? document maxDepth)).find? (acceptsType · x) with
  | none => exact absurd htype (List.find?_eq_none.mp hfind sub hsub)
  | some found =>
    have hmem := List.mem_of_find?_eq_some hfind
    have hnever := hapart.imp_of_mem fun hleft hright hapart =>
      not_acceptsType_of_areApart (x := x) hapart (hdeclares hleft) (hdeclares hright)
    have hsymm : Std.Symm fun sub other => ¬ (acceptsType sub x ∧ acceptsType other x) :=
      ⟨fun _ _ hnot hboth => hnot hboth.symm⟩
    have hfound : acceptsType found x := List.find?_some (p := fun sub => acceptsType sub x) hfind
    have hsame : found = sub := by
      by_contra hne
      exact hnever.forall hmem hsub hne ⟨hfound, htype⟩
    exact ⟨found, rfl, hsame ▸ hadmits⟩

/-- Where a document tells all alternatives apart, nothing is converted in a value that it admits. -/
theorem isSteady_of_isDiscriminating (hdiscriminating : isDiscriminating document) : IsSteady I document options v := by
  have hall {members : List (String × Json)} (hnode : (Json.obj members).IsPartOf document) :
      ((isDiscriminated document (.obj members) "anyOf" ∧ isDiscriminated document (.obj members) "oneOf") ∧
        members.lookup "prefixItems" = none) ∧
      (members.lookup "patternProperties" = none ∨ members.lookup "additionalProperties" = none) := by
    simpa [isDiscriminating, Json.get?] using List.all_eq_true.mp hdiscriminating _ (List.mem_cons.mpr hnode)
  refine ⟨mirrors_of_isFaithful hfaithful, fun {members x keyword} hnode hnone hpassed hkeyword => ?_,
    fun hnode _ _ hprefixes => ?_, fun hnode _ _ hinside _ hmatched => ?_⟩
  · obtain ⟨⟨⟨hany, hone⟩, _⟩, _⟩ := hall hnode
    have hdiscriminated : isDiscriminated document (.obj members) keyword := by
      rcases hkeyword with rfl | rfl
      · exact hany
      · exact hone
    by_cases hlisted : listed (.obj members) keyword = []
    · right
      intro depth _
      rw [hlisted]
      rfl
    · left
      obtain ⟨alternative, halternative⟩ := List.exists_mem_of_ne_nil _ hlisted
      obtain ⟨nodes, hnodes, _⟩ := exists_of_mem_listed halternative
      rw [listed_eq hnodes]
      exact exists_find_of_isDiscriminated h hfaithful hstart hnode hnone hpassed hkeyword hdiscriminated hnodes
  · rw [(hall hnode).1.2] at hprefixes
    cases hprefixes
  · obtain ⟨patterns, _, _, hpatterns, _⟩ := hmatched
    rcases (hall hnode).2 with hnone | hnone
    · cases hnone.symm.trans hpatterns
    · cases hnone.symm.trans hinside

end Steadiness

end Coercion

/-- What is accepted without conversion is met by the document, in the form that it is checked by. -/
theorem Engine.isMet_of_eq_ok {Context : Type} {I : Interpretation Context} {inspect : Json → Except SchemaError Unit}
    {judge : Json → Json → List Violation} (h : I.IsDraft7 inspect judge) {document : Json} {validator : Validator}
    (hcompiled : Engine.inspecting inspect judge document = .ok validator) (hdocument : document.hasDistinctNames)
    {options : Options} {v canonical : Json} (hc : options.coerce = false) (hv : v.hasDistinctNames)
    (hends : I.ends (options.form document) v) (hvalid : validator options v = .ok canonical) :
    canonical = v ∧ judge (options.form document) v = [] ∧
      I.IsMet (I.start (options.form document)) (options.form document) v := by
  have hinspect := Engine.inspect_form hcompiled options
  obtain ⟨_, _, rfl⟩ := Engine.inspecting_eq_ok_iff.mp hcompiled
  obtain ⟨hcanonical, hjudge⟩ := Engine.validatorBy_eq_ok_iff.mp hvalid
  obtain rfl : canonical = v := by
    rw [hcanonical, hc]
    rfl
  have hform : (options.form document).hasDistinctNames := Options.hasDistinctNames_form hdocument
  exact ⟨rfl, hjudge, h.reads_start hinspect hform, hv, h.finite hends, (h.judges hinspect hform hv hends).mp hjudge⟩

section Samples

/-- A document with an alternative for strings, which are not converted even where they spell an integer. -/
def labelled : Json := .obj [("required", .arr [.str "id"]), ("properties", .obj [
  ("id", .obj [("anyOf", .arr [.obj [("type", .str "integer")], .obj [("$ref", .str "#/definitions/label")]])]),
  ("marks", .obj [("items", .arr [.obj [("type", .str "number")], .obj [("type", .str "string")]]),
    ("additionalItems", .obj [("type", .arr [.str "boolean", .str "null"])])])]),
  ("additionalProperties", .obj [("$ref", .str "#/definitions/label")]),
  ("definitions", .obj [("label", .obj [("type", .str "string")])])]

/-- A value that spells numbers and flags. -/
def label : Json :=
  .obj [("id", .str "5"), ("marks", .arr [.num (.int 3), .str "4", .bool true]), ("more", .str "true")]

/-- An object whose member `x` is of the type. -/
def typedInside (name : String) : Json := .obj [("properties", .obj [("x", .obj [("type", .str name)])])]

def eitherInside : Json := .obj [("anyOf", .arr [typedInside "integer", typedInside "string"])]

/-- A document with alternatives for the same objects. -/
def spelled : Json := .obj [("properties", .obj [("p", eitherInside)])]

/-- An object that the alternatives are for. -/
def spelling (x : Json) : Json := .obj [("x", x)]

section Spelled

variable {draft : Draft} {occurs : String → String → Prop} {admits : Json → Json → Prop} {node v z : Json}

theorem exists_of_demands_properties {rules : List (String × Json)}
    (h : Demands draft occurs [("properties", .obj rules)] v node z) :
    ∃ data name, v = .obj data ∧ rules.lookup name = some node ∧ data.lookup name = some z := by
  cases h with
  | property hrules hnode hz =>
    obtain rfl := Json.obj.inj (Option.some.inj hrules)
    exact ⟨_, _, rfl, hnode, hz⟩
  | _ => simp_all [List.lookup_cons]

theorem not_demands_anyOf {nodes : List Json} : ¬ Demands draft occurs [("anyOf", .arr nodes)] v node z := by
  intro h
  cases h <;> simp_all [List.lookup_cons]

theorem chooses_properties {rules : List (String × Json)} : Chooses draft admits [("properties", .obj rules)] v := by
  constructor <;> simp [List.lookup_cons]

theorem chooses_anyOf {nodes : List Json} (hnode : node ∈ nodes) (hadmits : admits node v) :
    Chooses draft admits [("anyOf", .arr nodes)] v := by
  refine ⟨fun list hlist => ?_, ?_, ?_, ?_, ?_, ?_⟩
  · obtain rfl := Json.arr.inj (Option.some.inj hlist)
    exact ⟨node, hnode, hadmits⟩
  all_goals simp [List.lookup_cons]

theorem meetsOwn_singleton {key : String} {w : Json} (hdata : Nesting.ofKeyword key ≠ .data) (hitems : key ≠ "items") :
    MeetsOwn .seven [(key, w)] v := by
  have hkeys {other : String} {w' : Json} (h : List.lookup other [(key, w)] = some w') : other = key := by
    by_contra hne
    simp [List.lookup_cons, beq_eq_false_iff_ne.mpr hne] at h
  refine ⟨fun other _ hlookup hother _ => ?_, fun hfalse => ?_⟩
  · exact absurd (hkeys hlookup ▸ hother) hdata
  · exact absurd (hkeys hfalse).symm hitems

/-- What conversion makes of the object by the first alternative, and all that its check takes. -/
theorem spelled_runs :
    Success.yields (Engine.draft7 spelled) (fun validator =>
      Success.yields (validator .strict (.obj [("p", spelling (.str "5"))])) fun canonical =>
        canonical = Json.obj [("p", spelling (.str "5"))]) ∧
    isCertified spelled (Options.form .strict) spelled ∧ (typedInside "integer", 0) ∈ spelled.flatRanks ∧
    Success.yields (Rule.read (Standpoint.start spelled).scope (typedInside "integer")) (fun rule =>
      (rule.findings (followIn (Standpoint.start spelled).library 0) none (spelling (.num (.int 5)))).isEmpty) ∧
    Coercion.walk spelled Coercion.maxDepth eitherInside (spelling (.str "5")) = spelling (.num (.int 5)) := by
  decide +kernel

/-- Conversion by the first alternative is guided, as the alternative admits what it makes of the object. -/
theorem isGuided_eitherInside (hreads : (Standpoint.start spelled).IsReadable spelled) :
    Coercion.IsGuided checkInterpretation spelled .strict Coercion.maxDepth (Standpoint.start spelled) eitherInside
      (spelling (.str "5")) := by
  obtain ⟨_, hcertified, hmem, haccepts, hconverted⟩ := spelled_runs
  have hdraft : (Standpoint.start spelled).draft = .seven := isDraft7_check.draft_start spelled
  have hinside : (Standpoint.start spelled).inside [("anyOf", .arr [typedInside "integer", typedInside "string"])] =
      Standpoint.start spelled := Standpoint.inside_eq_self rfl
  have hadmits : (Standpoint.start spelled).Admits (typedInside "integer") (spelling (.num (.int 5))) := by
    obtain ⟨rule, hrule, hnone⟩ := Success.exists_of_yields haccepts
    exact Standpoint.admits_of_isRanked (Bool.and_eq_true_iff.mp hcertified).1 hmem
      ⟨⟨rule, hrule⟩, by decide, hreads.library⟩ (by decide) ⟨rule, hrule, List.isEmpty_iff.mp hnone⟩
  refine fun _ => ⟨Standpoint.start spelled, _, by rfl, .self, ?_, ?_, fun node z hdemands => ?_⟩
  · change MeetsOwn (Standpoint.start spelled).draft _ _
    rw [hdraft]
    exact meetsOwn_singleton (by decide) (by decide)
  · change Chooses _ ((Standpoint.start spelled).inside _).Admits _ (Coercion.walk spelled Coercion.maxDepth _ _)
    rw [hconverted]
    refine chooses_anyOf List.mem_cons_self ?_
    exact hinside.symm ▸ hadmits
  · exact absurd hdemands not_demands_anyOf

/-- Conversion of an object goes by the rules for its members. -/
theorem walk_spelled (x : Json) : Coercion.walk spelled (Coercion.maxDepth + 1) spelled (.obj [("p", x)]) =
    .obj [("p", Coercion.walk spelled Coercion.maxDepth eitherInside x)] := rfl

theorem isGuided_spelled (hreads : (Standpoint.start spelled).IsReadable spelled) :
    Coercion.IsGuided checkInterpretation spelled .strict (Coercion.maxDepth + 1) (Standpoint.start spelled) spelled
      (.obj [("p", spelling (.str "5"))]) := by
  have hdraft : (Standpoint.start spelled).draft = .seven := isDraft7_check.draft_start spelled
  have hinside :
      (Standpoint.start spelled).inside [("properties", .obj [("p", eitherInside)])] = Standpoint.start spelled :=
    Standpoint.inside_eq_self rfl
  refine fun _ => ⟨Standpoint.start spelled, _, by rfl, .self, ?_, chooses_properties, fun node z hdemands => ?_⟩
  · change MeetsOwn (Standpoint.start spelled).draft _ _
    rw [hdraft]
    exact meetsOwn_singleton (by decide) (by decide)
  · obtain ⟨data, name, hdata, hnode, hz⟩ := exists_of_demands_properties hdemands
    obtain rfl := Json.obj.inj ((walk_spelled _).symm.trans hdata)
    have hrule : [("p", eitherInside)].lookup "p" = some eitherInside := rfl
    obtain ⟨rfl, rfl⟩ := Prod.mk.inj (List.mem_singleton.mp (Json.mem_of_lookup hnode))
    obtain rfl := Option.some.inj hz
    exact .inr (.inl ⟨eitherInside, _, rfl, rfl, .property rfl hrule rfl, hinside.symm ▸ isGuided_eitherInside hreads⟩)

end Spelled

/-- A document whose alternatives are of one type. -/
def unlabelled : Json := .obj [("anyOf", .arr [
  .obj [("type", .str "object"), ("properties", .obj [("x", .obj [("type", .str "integer")])]),
    ("required", .arr [.str "y"])],
  .obj [("type", .str "object"), ("properties", .obj [("x", .obj [("type", .str "string")])])]])]

example : ¬ Coercion.isDiscriminating unlabelled := by decide +kernel

end Samples
end SchemaBound
