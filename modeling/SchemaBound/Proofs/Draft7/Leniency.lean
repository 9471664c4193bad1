import SchemaBound.Proofs.Check.Ending
import SchemaBound.Proofs.Coercion.Leafwise
import SchemaBound.Proofs.Draft7.Engines

/-! Checks that let members be missing. They accept what the whole schema accepts, as long as no requirement is what lets
a value in. -/
namespace SchemaBound
open Requirement (strip)

namespace Interpretation

variable {Context : Type} (I : Interpretation Context) (document : Json)

/-- Schemas that are met from the start of a document on: how they count for it, where they are read in the document and
where in the document without its requirements, and the form that they have there. -/
inductive Meeting : Polarity → Options → Context → Json → Context → Prop
  | start : Meeting .positive ⟨false, true⟩ (I.start document) document (I.start (strip document))
  | part {polarity way : Polarity} {options : Options} {c c' : Context} {members : List (String × Json)}
      {v node x : Json} :
      Meeting polarity options c (.obj members) c' → members.lookup "$ref" = none →
      Poses (I.draft c) I.occurs members way v node x →
      Meeting (way.times polarity) options (I.inside c members) node (I.inside c' (options.formMembers members))
  | target {polarity : Polarity} {options options' : Options} {c c' d d' : Context} {members : List (String × Json)}
      {reference : String} {node : Json} :
      Meeting polarity options c (.obj members) c' → members.lookup "$ref" = some (.str reference) →
      I.follow c reference = some (d, node) → I.follow c' reference = some (d', options'.form node) →
      Meeting polarity options' d node d'

/-- Requirements of a schema only keep values out, also where references lead. References lead in the schema without its
requirements to what they lead to in the whole schema. -/
structure IsRelaxable : Prop where
  /-- Schemas that list names count positively, where the lists are lost. -/
  positive : ∀ {polarity options c members c'}, I.Meeting document polarity options c (.obj members) c' →
    members.lookup "$ref" = none → polarity = .positive ∨ options.allowMissing = false ∨ ListsNoNames members
  /-- References lead to the same schema, which may lose its requirements, or nowhere in both. -/
  leads : ∀ {polarity options c members c' reference}, I.Meeting document polarity options c (.obj members) c' →
    members.lookup "$ref" = some (.str reference) →
    I.follow c reference = none ∧ I.follow c' reference = none ∨
      ∃ d node d' options', I.follow c reference = some (d, node) ∧
        I.follow c' reference = some (d', Options.form options' node) ∧ I.draft d = I.draft d'

/-- A schema and its form, where they are met. -/
def Relaxed (polarity : Polarity) (c : Context) (node : Json) (c' : Context) (node' : Json) : Prop :=
  ∃ options : Options, I.Meeting document polarity options c node c' ∧ node' = options.form node ∧
  I.draft c = I.draft c'

variable {I document} {inspect : Json → Except SchemaError Unit} {judge : Json → Json → List Violation}

/-- Schemas ask of schemas what their forms ask of the forms of these. -/
theorem IsRelaxable.simulates (hrelaxable : I.IsRelaxable document) (h : I.IsDraft7 inspect judge) :
    I.Simulates (I.Relaxed document) where
  scalar := by
    rintro polarity c node c' _ ⟨options, _, rfl, _⟩ hnode
    exact Options.form_of_not_obj hnode
  reference := by
    rintro polarity c members c' _ reference ⟨options, hmeeting, rfl, _⟩ href
    refine ⟨?_, ?_⟩
    · rw [Options.get_form_data (by decide) (by decide)]
      exact href
    · rcases hrelaxable.leads hmeeting href with hnone | ⟨d, node, d', options', hsome, hsome', hdraft⟩
      · exact .inl hnone
      · exact .inr ⟨d, node, d', _, hsome, hsome', options', .target hmeeting href hsome hsome', rfl, hdraft⟩
  keywords := by
    rintro polarity c members c' _ ⟨options, hmeeting, rfl, hdraft⟩ hnone
    refine ⟨options.formMembers members, options.form, options.form_obj members, ?_, hdraft,
      fun v => h.own_formMembers_iff.symm, fun admits v => ?_, fun way v node x hposes => ⟨?_, options, ?_, rfl, ?_⟩⟩
    · rw [Options.lookup_formMembers_data (by decide) (by decide)]
      exact hnone
    · exact Options.meets_formMembers (hrelaxable.positive hmeeting hnone)
    · exact Options.poses_formMembers hposes
    · exact .part hmeeting hnone hposes
    · rw [h.draft_inside, h.draft_inside, hdraft]

end Interpretation

/-- A value that the whole schema accepts is accepted when members may be missing, and comes back as the same value: if
requirements only keep values out, and the judgements of what comes back end. -/
theorem Engine.accepts_without_requirements {Context : Type} {I : Interpretation Context}
    {inspect : Json → Except SchemaError Unit} {judge : Json → Json → List Violation} (h : I.IsDraft7 inspect judge)
    {document : Json} {validator : Validator} (hcompiled : Engine.inspecting inspect judge document = .ok validator)
    (hdocument : document.hasDistinctNames) (hrelaxable : I.IsRelaxable document) (convert : Bool) {v canonical : Json}
    (hv : v.hasDistinctNames) (hends : I.ends document canonical) (hends' : I.ends (strip document) canonical)
    (hvalid : validator ⟨convert, false⟩ v = .ok canonical) : validator ⟨convert, true⟩ v = .ok canonical := by
  obtain ⟨hwhole, hstripped, rfl⟩ := inspecting_eq_ok_iff.mp hcompiled
  obtain ⟨hconverted, hjudge⟩ := validatorBy_eq_ok_iff.mp hvalid
  have hcanonical : canonical.hasDistinctNames := by
    rw [hconverted]
    split
    · exact (Coercion.leafwise_coerce document).hasDistinctNames hv
    · exact hv
  have hdocument' := Requirement.hasDistinctNames_strip hdocument
  have hrelaxed : I.Relaxed document .positive (I.start document) document (I.start (strip document)) (strip document) :=
    ⟨⟨false, true⟩, .start, rfl, (h.draft_start document).trans (h.draft_start _).symm⟩
  have hadmits := (h.judges hwhole hdocument hcanonical hends).mp hjudge
  have himplies := (hrelaxable.simulates h).implies h hrelaxed (h.reads_start hwhole hdocument)
    (h.reads_start hstripped hdocument') hcanonical (h.finite hends) (h.finite hends')
  exact validatorBy_eq_ok_iff.mpr ⟨hconverted, (h.judges hstripped hdocument' hcanonical hends').mpr (himplies hadmits)⟩

section Computation

/-- A schema that is met: how it counts, whether its requirements are lost, and the schema. -/
abbrev Met := Polarity × Bool × Json

def listsNoNames (members : List (String × Json)) : Bool :=
  members.all fun (key, w) =>
    match w with
    | .arr _ => key ≠ "required"
    | .obj list => key ≠ "dependencies" || list.all fun (_, node) => !node.isArray
    | _ => true

theorem listsNoNames_iff {members : List (String × Json)} (h : listsNoNames members) : ListsNoNames members := by
  have hall := List.all_eq_true.mp h
  refine ⟨fun names hnames => ?_, fun list name names hlist hnames => ?_⟩
  · exact of_decide_eq_true (hall _ (Json.mem_of_lookup hnames)) rfl
  · have hnode := (Bool.or_eq_true_iff.mp (hall _ (Json.mem_of_lookup hlist))).resolve_left (by decide)
    cases List.all_eq_true.mp hnode _ hnames

namespace Standpoint

/-- Whatever the schemas on the list pose or refer to is on it, and all of it is read in the same place. Requirements
count positively where they are lost. -/
def isRelaxableBy (c c' : Standpoint) (met : List Met) : Bool :=
  met.all fun (polarity, lost, node) =>
    match node with
    | .obj members =>
      match members.lookup "$ref" with
      | none =>
        (polarity = .positive || !lost || listsNoNames members) &&
        (c.inside members).base = c.base && (c'.inside (Options.formMembers ⟨false, lost⟩ members)).base = c'.base &&
        (Json.posed members).all fun (way, part) => (way.times polarity, lost, part) ∈ met
      | some target =>
        target.text?.all fun reference =>
          match c.follow reference, c'.follow reference with
          | none, none => true
          | some (d, other), some (d', other') =>
            d.base = c.base && d.draft = c.draft && d'.base = c'.base && d'.draft = c'.draft &&
            (other' = other || other' = strip other) &&
            (other' ≠ other || (polarity, false, other) ∈ met) &&
            (other' ≠ strip other || (polarity, true, other) ∈ met)
          | _, _ => false
    | _ => true

variable {document : Json} {met : List Met}

theorem mem_of_meeting (h : (start document).isRelaxableBy (start (strip document)) met)
    (hmem : (.positive, true, document) ∈ met) {polarity : Polarity} {options : Options} {c c' : Standpoint}
    {node : Json}
    (hmeeting : checkInterpretation.Meeting document polarity options c node c') :
    c = start document ∧ c' = start (strip document) ∧ (polarity, options.allowMissing, node) ∈ met := by
  induction hmeeting with
  | start => exact ⟨rfl, rfl, hmem⟩
  | part _ hnone hposes ih =>
    obtain ⟨rfl, rfl, hmet⟩ := ih
    have hentry := List.all_eq_true.mp h _ hmet
    simp only [hnone, Bool.and_eq_true, decide_eq_true_eq] at hentry
    obtain ⟨⟨⟨_, hbase⟩, hbase'⟩, hposed⟩ := hentry
    exact ⟨inside_eq_self hbase, inside_eq_self hbase', of_decide_eq_true (List.all_eq_true.mp hposed _ hposes.mem_posed)⟩
  | @target polarity options options' _ _ d d' members reference node _ href hfollow hfollow' ih =>
    obtain ⟨rfl, rfl, hmet⟩ := ih
    have hfollow : (start document).follow reference = some (d, node) := hfollow
    have hfollow' : (start (strip document)).follow reference = some (d', options'.form node) := hfollow'
    have hentry := List.all_eq_true.mp h _ hmet
    simp only [href, Json.text?, Option.all_some, hfollow, hfollow', Bool.and_eq_true, Bool.or_eq_true,
      decide_eq_true_eq]
      at hentry
    obtain ⟨⟨⟨⟨⟨⟨hbase, hdraft⟩, hbase'⟩, hdraft'⟩, _⟩, hwhole⟩, hlost⟩ := hentry
    refine ⟨eq_of_follow hfollow hbase hdraft, eq_of_follow hfollow' hbase' hdraft', ?_⟩
    cases hallow : options'.allowMissing with
    | false => exact hwhole.resolve_left fun hne => hne (by simp [Options.form, hallow])
    | true => exact hlost.resolve_left fun hne => hne (by simp [Options.form, hallow])

/-- What the list certifies. -/
theorem isRelaxable_of_isRelaxableBy (h : (start document).isRelaxableBy (start (strip document)) met)
    (hmem : (.positive, true, document) ∈ met) : checkInterpretation.IsRelaxable document where
  positive {polarity options c members c'} hmeeting hnone := by
    obtain ⟨rfl, rfl, hmet⟩ := mem_of_meeting h hmem hmeeting
    have hentry := List.all_eq_true.mp h _ hmet
    simp only [hnone, Bool.and_eq_true, Bool.or_eq_true, decide_eq_true_eq, Bool.not_eq_true'] at hentry
    rcases hentry.1.1.1 with (hpositive | hkept) | hnames
    · exact .inl hpositive
    · exact .inr (.inl hkept)
    · exact .inr (.inr (listsNoNames_iff hnames))
  leads {polarity options c members c' reference} hmeeting href := by
    obtain ⟨rfl, rfl, hmet⟩ := mem_of_meeting h hmem hmeeting
    have hentry := List.all_eq_true.mp h _ hmet
    simp only [href, Json.text?, Option.all_some] at hentry
    change (start document).follow reference = none ∧ (start (strip document)).follow reference = none ∨
      ∃ d node d' options',
      (start document).follow reference = some (d, node) ∧
        (start (strip document)).follow reference = some (d', Options.form options' node) ∧ d.draft = d'.draft
    cases hfollow : (start document).follow reference with
    | none =>
      cases hfollow' : (start (strip document)).follow reference with
      | none => exact .inl ⟨rfl, rfl⟩
      | some found' => simp [hfollow, hfollow'] at hentry
    | some found =>
      cases hfollow' : (start (strip document)).follow reference with
      | none => simp [hfollow, hfollow'] at hentry
      | some found' =>
        obtain ⟨d, node⟩ := found
        obtain ⟨d', node'⟩ := found'
        simp only [hfollow, hfollow', Bool.and_eq_true, Bool.or_eq_true, decide_eq_true_eq] at hentry
        obtain ⟨⟨⟨⟨⟨⟨_, hdraft⟩, _⟩, hdraft'⟩, hform⟩, _⟩, _⟩ := hentry
        have hdrafts : d.draft = d'.draft := by
          rw [hdraft, hdraft']
          exact (isDraft7_check.draft_start document).trans (isDraft7_check.draft_start _).symm
        rcases hform with rfl | rfl
        · exact .inr ⟨d, _, d', .strict, rfl, rfl, hdrafts⟩
        · exact .inr ⟨d, _, d', ⟨false, true⟩, rfl, rfl, hdrafts⟩

end Standpoint

end Computation

section Samples

def requiresC : Json := .obj [("required", .arr [.str "c"])]

def requiresN : Json := .obj [("required", .arr [.str "n"])]

/-- A document that refers to two definitions, to one of them under `oneOf`. -/
def keptOut : Json := .obj [("required", .arr [.str "a"]), ("not", .obj [("not", requiresN)]),
  ("properties", .obj [("a", .obj [("$ref", .str "#/definitions/s")]), ("n", .obj [("type", .str "integer")])]),
  ("oneOf", .arr [.obj [("$ref", .str "#/definitions/t")]]),
  ("definitions", .obj [("s", requiresC), ("t", .obj [("type", .str "object")])])]

/-- The schemas that are met in the document. -/
def keptOutMet : List Met :=
  [(.positive, true, keptOut), (.negative, true, .obj [("not", requiresN)]), (.positive, true, requiresN),
    (.positive, true, .obj [("$ref", .str "#/definitions/s")]), (.positive, true, .obj [("type", .str "integer")]),
    (.mixed, true, .obj [("$ref", .str "#/definitions/t")]), (.positive, true, requiresC),
    (.positive, true, .obj [("type", .str "object")]), (.mixed, true, .obj [("type", .str "object")]),
    (.mixed, false, .obj [("type", .str "object")])]

/-- What the document accepts is accepted without its requirements, here after conversion. -/
theorem accepts_without_requirements_keptOut : ∃ validator canonical, Engine.draft7 keptOut = .ok validator ∧
    keptOut.hasDistinctNames ∧ checkInterpretation.IsRelaxable keptOut ∧ checkInterpretation.ends keptOut canonical ∧
    checkInterpretation.ends (strip keptOut) canonical ∧
    canonical = .obj [("a", .obj [("c", .null)]), ("n", .num (.int 5))] ∧
    validator ⟨true, false⟩ (.obj [("a", .obj [("c", .null)]), ("n", .str "5")]) = .ok canonical ∧
    validator ⟨true, true⟩ (.obj [("a", .obj [("c", .null)]), ("n", .str "5")]) = .ok canonical := by
  have hruns : Success.yields (Engine.draft7 keptOut) (fun validator =>
        Success.yields (validator ⟨true, false⟩ (.obj [("a", .obj [("c", .null)]), ("n", .str "5")])) fun canonical =>
          canonical = Json.obj [("a", .obj [("c", .null)]), ("n", .num (.int 5))]) ∧
      (Standpoint.start keptOut).isRelaxableBy (Standpoint.start (strip keptOut)) keptOutMet ∧
      (Standpoint.start keptOut).isRanked keptOut.flatRanks ∧
      (Standpoint.start (strip keptOut)).isRanked (strip keptOut).flatRanks := by decide +kernel
  obtain ⟨hrun, hmet, hranked⟩ := hruns
  have hdistinct : keptOut.hasDistinctNames := by decide
  obtain ⟨validator, hvalidator, hrun⟩ := Success.exists_of_yields hrun
  obtain ⟨canonical, hcanonical, hvalue⟩ := Success.exists_of_yields hrun
  have hvalue := of_decide_eq_true hvalue
  have hvalueDistinct : canonical.hasDistinctNames := hvalue ▸ by decide
  obtain ⟨hwhole, hstripped, _⟩ := Engine.inspecting_eq_ok_iff.mp (Engine.draft7_eq_inspecting ▸ hvalidator)
  have hrelaxable : checkInterpretation.IsRelaxable keptOut :=
    Standpoint.isRelaxable_of_isRelaxableBy hmet List.mem_cons_self
  have hends : checkInterpretation.ends keptOut canonical :=
    ends_of_isFlat hwhole hdistinct hranked.1 hvalueDistinct
  have hends' : checkInterpretation.ends (strip keptOut) canonical :=
    ends_of_isFlat hstripped (Requirement.hasDistinctNames_strip hdistinct) hranked.2 hvalueDistinct
  exact ⟨validator, canonical, hvalidator, hdistinct, hrelaxable, hends, hends', hvalue, hcanonical,
    Engine.accepts_without_requirements isDraft7_check hvalidator hdistinct hrelaxable true (by decide) hends hends'
      hcanonical⟩

/-- A document whose alternatives differ in what they require. -/
def letIn : Json := .obj [("oneOf", .arr [.obj [("required", .arr [.str "a"])], .obj [("required", .arr [.str "b"])]])]

/-- Both alternatives are met in the document as one of several, and they list names. -/
example : ¬ (Standpoint.start letIn).isRelaxableBy (Standpoint.start (strip letIn)) [(.positive, true, letIn),
    (.mixed, true, .obj [("required", .arr [.str "a"])]), (.mixed, true, .obj [("required", .arr [.str "b"])])] := by
  decide +kernel

/-- Without their requirements both alternatives accept what only one of them accepts with them. -/
theorem exists_refused_without_requirements : ∃ validator, Engine.draft7 letIn = .ok validator ∧
    validator ⟨false, false⟩ (.obj [("a", .num (.int 1))]) = .ok (.obj [("a", .num (.int 1))]) ∧
    ∃ violations, validator ⟨false, true⟩ (.obj [("a", .num (.int 1))]) = .error violations := by
  have hrun : Success.yields (Engine.draft7 letIn) fun validator =>
      Success.yields (validator ⟨false, false⟩ (.obj [("a", .num (.int 1))])) (fun canonical =>
        canonical = Json.obj [("a", .num (.int 1))]) &&
      !(validator ⟨false, true⟩ (.obj [("a", .num (.int 1))])).toBool := by decide +kernel
  obtain ⟨validator, hvalidator, hrun⟩ := Success.exists_of_yields hrun
  obtain ⟨haccepts, hrefuses⟩ := Bool.and_eq_true_iff.mp hrun
  obtain ⟨canonical, hcanonical, hvalue⟩ := Success.exists_of_yields haccepts
  obtain rfl := of_decide_eq_true hvalue
  refine ⟨validator, hvalidator, hcanonical, ?_⟩
  cases hresult : validator ⟨false, true⟩ (.obj [("a", .num (.int 1))]) with
  | ok found => simp [hresult, Except.toBool] at hrefuses
  | error violations => exact ⟨violations, rfl⟩

end Samples
end SchemaBound
