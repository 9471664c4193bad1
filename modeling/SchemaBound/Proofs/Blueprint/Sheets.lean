import SchemaBound.Proofs.Blueprint.Checked
import SchemaBound.Proofs.Blueprint.Handed
import SchemaBound.Proofs.Draft7.Engines
import SchemaBound.Proofs.Draft7.Faithful

/-! The documents that validators judge by: nodes with definitions behind their members, in the form that the options
ask for. Where references mean in such a document what they mean in the whole one, both judge by the node alike. -/
namespace SchemaBound

theorem lookup_append_definitions {members definitions : List (String × Json)}
    (h : ∀ member ∈ definitions, isDefinitions member.1) {key : String} (hkey : ¬ isDefinitions key) :
    (members ++ definitions).lookup key = members.lookup key := by
  have hnone : definitions.lookup key = none := by
    rw [List.lookup_eq_none_iff]
    intro member hmember
    rw [bne_iff_ne]
    rintro rfl
    exact hkey (h member hmember)
  rw [List.lookup_append, hnone, Option.or_none]

namespace Compilation

variable {document : Json} {members : List (String × Json)}

theorem exists_takeOver (document : Json) (members : List (String × Json)) {key : String} (hkey : isDefinitions key) :
    ∃ definitions, takeOver document members key = members ++ definitions ∧
      ∀ member ∈ definitions, isDefinitions member.1 := by
  unfold takeOver
  split
  · rename_i definitions _ _
    exact ⟨[(key, definitions)], rfl, fun member hmember => List.mem_singleton.mp hmember ▸ hkey⟩
  · exact ⟨[], (List.append_nil members).symm, fun member hmember => nomatch hmember⟩

/-- A node that definitions are attached to has them behind its members. -/
theorem exists_attach (document : Json) (members : List (String × Json)) :
    ∃ definitions, attach document (.obj members) = .obj (members ++ definitions) ∧
      ∀ member ∈ definitions, isDefinitions member.1 := by
  obtain ⟨first, hfirst, hfirstKeys⟩ := exists_takeOver document members (Or.inl rfl)
  obtain ⟨second, hsecond, hsecondKeys⟩ := exists_takeOver document (members ++ first) (Or.inr rfl)
  refine ⟨first ++ second, ?_, fun member hmember => ?_⟩
  · rw [attach_eq_foldl, List.foldl_cons, List.foldl_cons, List.foldl_nil, hfirst, hsecond, List.append_assoc]
  · exact (List.mem_append.mp hmember).elim (hfirstKeys member) (hsecondKeys member)

theorem hasDistinctNames_takeOver (hdocument : document.hasDistinctNames) (h : (Json.obj members).hasDistinctNames)
    (key : String) : (Json.obj (takeOver document members key)).hasDistinctNames := by
  unfold takeOver
  split
  · rename_i definitions hdefinitions hnone
    obtain ⟨hnames, hvalues⟩ := Json.hasDistinctNames_obj_iff.mp h
    refine Json.hasDistinctNames_obj_iff.mpr ⟨?_, fun member hmember => ?_⟩
    · rw [List.map_append, List.nodup_append]
      refine ⟨hnames, List.nodup_singleton _, fun name hname other hother => ?_⟩
      obtain rfl := List.mem_singleton.mp hother
      obtain ⟨member, hmember, rfl⟩ := List.mem_map.mp hname
      exact bne_iff_ne.mp (List.lookup_eq_none_iff.mp hnone member hmember) |>.symm
    · rcases List.mem_append.mp hmember with hmember | hmember
      · exact hvalues member hmember
      · obtain rfl := List.mem_singleton.mp hmember
        exact Json.hasDistinctNames_get hdocument hdefinitions
  · exact h

theorem hasDistinctNames_standalone {place : Place} (hdocument : document.hasDistinctNames)
    (hplace : place.node.hasDistinctNames) : (standalone document place).hasDistinctNames := by
  obtain ⟨pointer, node⟩ := place
  unfold standalone
  split
  · exact hplace
  · cases node with
    | obj members =>
      rw [attach_eq_foldl]
      exact hasDistinctNames_takeOver hdocument (hasDistinctNames_takeOver hdocument hplace _) _
    | _ => exact hplace

end Compilation

namespace Place

/-- What values are judged by for the place. -/
def sheet (document : Json) (options : Options) (place : Place) : Json :=
  options.form (Compilation.standalone document place)

variable {document : Json} {options : Options} {place : Place}

/-- It is the node itself, but for definitions. -/
theorem isAkin_sheet (document : Json) (options : Options) (place : Place) :
    (options.form place.node).IsAkin (place.sheet document options) := by
  obtain ⟨pointer, node⟩ := place
  unfold sheet Compilation.standalone
  split
  · exact .refl _
  · cases node with
    | obj members =>
      obtain ⟨definitions, hattach, hdefinitions⟩ := Compilation.exists_attach document members
      refine .inr ⟨options.formMembers members, options.formMembers (members ++ definitions),
        Options.form_obj _ _, ?_, ?_⟩
      · rw [hattach, Options.form_obj]
      · intro key hkey
        rw [Options.formMembers_append, lookup_append_definitions (fun member hmember => ?_) hkey]
        obtain ⟨v, hv⟩ := Options.exists_of_mem_formMembers hmember
        exact hdefinitions (member.1, v) hv
    | _ => exact .refl _

theorem hasDistinctNames_sheet (hdocument : document.hasDistinctNames) (hplace : place.node.hasDistinctNames) :
    (place.sheet document options).hasDistinctNames :=
  Options.hasDistinctNames_form (Compilation.hasDistinctNames_standalone hdocument hplace)

/-- References in what values are judged by mean what they mean in the document, and judgements by it end: of the value
and of what stands in it. -/
structure IsPortable {Context : Type} (I : Interpretation Context) (document : Json) (options : Options)
    (place : Place) (v : Json) : Prop where
  faithful : I.IsFaithful document options.form (I.start (place.sheet document options)) (place.sheet document options)
  ends : ∀ x, x.IsPartOf v → x.hasDistinctNames → I.ends (place.sheet document options) x

/-- The place is met with a value: its node is, in the form that values are judged by, where it is read faithfully. -/
def IsMet {Context : Type} (I : Interpretation Context) (document : Json) (options : Options) (place : Place)
    (v : Json) : Prop :=
  ∃ c node, (options.form place.node).IsAkin node ∧ I.IsFaithful document options.form c node ∧ I.IsMet c node v

end Place

theorem Engine.inspecting_eq_judging (inspect : Json → Except SchemaError Unit) (judge : Json → Json → List Violation) :
    Engine.inspecting inspect judge =
      Engine.judging (fun node => do inspect node; inspect (Requirement.strip node)) judge := by
  funext node
  simp only [inspecting, judging, bind_assoc]

section Judging

variable {Context : Type} {I : Interpretation Context} {inspect : Json → Except SchemaError Unit}
  {judge : Json → Json → List Violation} {job : Compilation} {place : Place} {shape : Shape} {pointer : String}
  {validator : Validator} {options : Options}

/-- Without conversion, the validator for a portable place accepts the values that the place is met with. -/
theorem IsHanded.exists_ok_iff (h : I.IsDraft7 inspect judge)
    (hhanded : IsHanded job place shape pointer validator options)
    (he : job.engine = Engine.inspecting inspect judge) (hc : job.options.coerce = false)
    (hd : job.document.hasDistinctNames) {v : Json} (hportable : place.IsPortable I job.document job.options v)
    (hv : v.hasDistinctNames) :
    (∃ canonical, validator options v = .ok canonical) ↔ place.IsMet I job.document job.options v := by
  have hanswer := hhanded.handed
  rw [he] at hanswer
  have hinspect : inspect (place.sheet job.document job.options) = .ok () := Engine.inspect_form hanswer job.options
  obtain ⟨_, _, rfl⟩ := Engine.inspecting_eq_ok_iff.mp hanswer
  have hdistinct : (place.sheet job.document job.options).hasDistinctNames :=
    Place.hasDistinctNames_sheet hd (hhanded.reached.hasDistinctNames hd)
  have hreads := h.reads_start hinspect hdistinct
  have hends := hportable.ends v (.inl rfl) hv
  have hjudges := h.judges hinspect hdistinct hv hends
  have hvalidator : (∃ canonical, Engine.validatorBy judge (Compilation.standalone job.document place) options v =
      .ok canonical) ↔ judge (place.sheet job.document job.options) v = [] := by
    simp only [Engine.validatorBy_eq_ok_iff, hhanded.options_eq, hc, Bool.false_eq_true, if_false, exists_eq_left]
    rfl
  rw [hvalidator, hjudges]
  have hakin := place.isAkin_sheet job.document job.options
  constructor
  · exact fun hadmits => ⟨_, _, hakin, hportable.faithful, hreads, hv, h.finite hends, hadmits⟩
  · rintro ⟨c, node, hnode, hfaithful, hmet⟩
    exact (hmet.congr h ⟨hnode.symm.trans hakin, hfaithful, hportable.faithful⟩ hreads (h.finite hends)).admits

end Judging
end SchemaBound
