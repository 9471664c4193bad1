import SchemaBound.Proofs.Program.Reached

/-! What a committed model stores against the canonical form of what it stores: they can differ in nested
instances only, and without conversion it is the canonical form that is accepted. -/
namespace SchemaBound
open Json Success

section Engine

variable {judge : Json → Json → List Violation} {options : Options}

/-- Canonical values need no conversion. -/
theorem Engine.validatorBy_canonical {node v canonical : Json}
    (h : Engine.validatorBy judge node options v = .ok canonical) :
    Engine.validatorBy judge node { options with coerce := false } canonical = .ok canonical := by
  unfold Engine.validatorBy at h ⊢
  dsimp only at h ⊢
  split at h
  · rename_i hjudge
    obtain rfl := Except.ok.inj h
    rw [if_neg Bool.false_ne_true, hjudge]
  · cases h

end Engine

/-- The value is an instance of its own. -/
def FieldValue.isNested : FieldValue → Bool
  | .plain _ => false
  | .model _ | .sequence _ => true

section Fields

/-- The value of a field is the member of its name. -/
theorem lookup_snapshot {name : String} {fields : List Field} (hn : (fields.map Field.name).Nodup)
    (values : List (Option FieldValue)) :
    (snapshot fields values).lookup name =
      ((slotIn? name fields values).bind (·.2.2)).map FieldValue.toJson := by
  induction fields generalizing values with
  | nil => simp [snapshot, slotIn?]
  | cons field fields ih =>
    rw [List.map_cons, List.nodup_cons] at hn
    cases values with
    | nil => simp [snapshot, slotIn?]
    | cons current values =>
      rw [slotIn?_cons]
      by_cases hname : field.name = name
      · have hnone : (snapshot fields values).lookup name = none := lookup_snapshot_eq_none (hname ▸ hn.1) values
        cases current with
        | none => simp [snapshot, hname, hnone]
        | some v => simp [snapshot, hname]
      · rw [lookup_snapshot_cons_ne hname, ih hn.2, if_neg hname, Option.bind_map]
        rfl

end Fields

section Stored

variable {judge : Json → Json → List Violation} {options : Options} {m : Model} {name : String}

/-- The value of a field is the member of its name in the value of the model. -/
theorem Model.get_toJson (hn : (m.type.fields.map Field.name).Nodup) :
    m.toJson.get? name = m.value? name := by
  rw [m.toJson_eq, Json.get?, lookup_snapshot hn, value?, get?_eq]
  rfl

/-- The canonical value holds the reading of every field. -/
theorem Model.get_canonical {reading : Reading} (hr : ReadsBy m.type.check reading)
    (hn : (m.type.fields.map Field.name).Nodup) {canonical : Json}
    (hcheck : m.type.check m.toJson = .ok canonical) {v : FieldValue} (hv : m.get? name = some v) :
    canonical.get? name = some (v.toJson.mapText (reading.below (.member name))) := by
  have hmember : m.toJson.get? name = some v.toJson := by
    rw [get_toJson hn, value?, hv, Option.map_some]
  rw [m.toJson_eq, Json.get?] at hmember
  rw [hr.canonical hcheck, m.toJson_eq, mapText, Json.get?, lookup_mapTextMembers, hmember,
    Option.map_some]

/-- Plain fields of a committed model hold their canonical values. -/
theorem Model.IsCommitted.get_plain (hc : m.type.IsChecked judge options) (h : m.IsCommitted)
    {canonical : Json} (hcheck : m.type.check m.toJson = .ok canonical) {raw : Json}
    (hraw : m.get? name = some (.plain raw)) : canonical.get? name = some raw := by
  obtain ⟨reading, hr⟩ := hc.exists_readsBy
  have hread := Model.get_canonical hr (ModelType.isChecked_iff.mp hc).2.2.1 hcheck hraw
  obtain ⟨canonical', hcheck', hadopt⟩ := ModelType.commit_eq_ok.mp h
  rw [← m.toJson_eq, hcheck] at hcheck'
  obtain rfl := Except.ok.inj hcheck'
  have hvalues : m.values = adoptFields canonical m.type.fields m.values := congrArg Model.values hadopt
  rw [m.get?_eq] at hraw
  obtain ⟨⟨i, field, current⟩, hslot, rfl⟩ := Option.bind_eq_some_iff.mp hraw
  obtain ⟨hfield, hcurrent, rfl⟩ := Model.slotOf?_eq_some hslot
  have hadopted : (adoptFields canonical m.type.fields m.values)[i]? = _ := getElem?_adoptFields canonical hfield
  rw [← hvalues, hcurrent, hread] at hadopted
  have hsame := FieldValue.plain.inj (Option.some.inj (Option.some.inj hadopted))
  rw [Option.getD_some] at hsame
  rw [hread, ← hsame]

/-- What a committed model stores is its canonical value if and only if its nested instances hold theirs. -/
theorem Model.IsCommitted.toJson_eq_canonical_iff (hc : m.type.IsChecked judge options)
    (h : m.IsCommitted) {canonical : Json} (hcheck : m.type.check m.toJson = .ok canonical) :
    m.toJson = canonical ↔
      ∀ name v, m.get? name = some v → v.isNested → canonical.get? name = some v.toJson := by
  have hnames : (m.type.fields.map Field.name).Nodup := (ModelType.isChecked_iff.mp hc).2.2.1
  constructor
  · rintro rfl name v hv _
    rw [Model.get_toJson hnames, Model.value?, hv, Option.map_some]
  · intro hnested
    obtain ⟨reading, hr⟩ := hc.exists_readsBy
    have hheld (name : String) (v : FieldValue) (hv : m.get? name = some v) :
        canonical.get? name = some v.toJson := by
      cases v with
      | plain raw => exact h.get_plain hc hcheck hv
      | model nested => exact hnested name _ hv rfl
      | sequence nested => exact hnested name _ hv rfl
    have hfixed (member : String × Json) (hmember : member ∈ snapshot m.type.fields m.values) :
        member.2.mapText (reading.below (.member member.1)) = member.2 := by
      obtain ⟨name, w⟩ := member
      have hvalue : m.value? name = some w := by
        rw [← Model.get_toJson hnames, m.toJson_eq]
        exact lookup_of_mem (hnames.sublist (sublist_names_snapshot _ _)) hmember
      obtain ⟨v, hv, rfl⟩ := Option.map_eq_some_iff.mp hvalue
      have hread := Model.get_canonical hr hnames hcheck hv
      exact Option.some.inj (hread.symm.trans (hheld name v hv))
    have hmembers :=
      calc mapTextMembers reading (snapshot m.type.fields m.values)
        _ = (snapshot m.type.fields m.values).map fun member =>
              (member.1, member.2.mapText (reading.below (.member member.1))) := mapTextMembers_eq_map _ _
        _ = (snapshot m.type.fields m.values).map id :=
              List.map_congr_left fun member hmember => Prod.ext rfl (hfixed member hmember)
        _ = snapshot m.type.fields m.values := List.map_id _
    rw [hr.canonical hcheck, m.toJson_eq, mapText, hmembers]

/-- In a model that runs of writes reach with a commit, everything but nested instances is canonical: the
engine gives one canonical value for what is stored and for whatever was staged to make it, which is accepted
without conversion, and plain fields hold their part of it. The whole of what is stored is that value, and is
accepted without conversion for being it, if and only if every nested instance holds its part too. -/
theorem Schema.conforms_of_reached [Memory] (schema : Schema) (hd : schema.document.hasDistinctNames) (number : Nat)
    (inspection : Json → Except SchemaError Unit) (judge : Json → Json → List Violation)
    (options : Options) {type : ModelType}
    (htype : schema.compileModel number (Engine.judging inspection judge) options = .ok type) {m : Model}
    (hm : type.Reached ModelStep.isWrite true m) :
    ∃ canonical, type.check m.toJson = .ok canonical ∧
      (∀ staged, type.commit staged = .ok m →
        type.check (.obj (snapshot type.fields staged)) = .ok canonical) ∧
      type.validator { options with coerce := false } canonical = .ok canonical ∧
      (∀ name v, m.get? name = some (.plain v) → canonical.get? name = some v) ∧
      ((m.toJson = canonical ∧
          type.validator { options with coerce := false } m.toJson = .ok m.toJson) ↔
        ∀ name v, m.get? name = some v → v.isNested → canonical.get? name = some v.toJson) := by
  have hc := Schema.isChecked_compileModel hd htype
  obtain ⟨rfl, hcommitted⟩ := hm.type_eq_and_isCommitted hc
  replace hcommitted := hcommitted rfl
  obtain ⟨hoptions, ⟨node, hnode⟩, hnames, _⟩ := ModelType.isChecked_iff.mp hc
  obtain ⟨canonical, hcheck⟩ := hcommitted.check
  have hstrict : m.type.validator { options with coerce := false } canonical = .ok canonical := by
    unfold ModelType.check at hcheck
    rw [hoptions, hnode] at hcheck
    rw [hnode]
    exact Engine.validatorBy_canonical hcheck
  have hiff := hcommitted.toJson_eq_canonical_iff hc hcheck
  refine ⟨canonical, hcheck, fun staged hstaged => ?_, hstrict, fun name raw hraw => ?_, ?_⟩
  · rw [← ModelType.check_snapshot_of_commit hc hstaged, ← m.toJson_eq]
    exact hcheck
  · exact hcommitted.get_plain hc hcheck hraw
  · rw [← hiff]
    constructor
    · rintro ⟨heq, _⟩
      exact heq
    · intro heq
      exact ⟨heq, heq ▸ hstrict⟩

/-- What only the schema around a nested object says of its member counts in the canonical value. -/
theorem conforms_of_reached_after_refusal :
    ∃ type m canonical, boundFromOutside.compileModel 0 Engine.draft7 .coercing = .ok type ∧
      type.Reached ModelStep.isWrite true m ∧ m.toJson = .obj [("n", .obj [("x", .str "7")])] ∧
      type.check m.toJson = .ok canonical ∧ type.validator .strict canonical = .ok canonical := by
  obtain ⟨type, m, htype, hm, hvalue⟩ := exists_reached_nestedChanges ModelStep.isWrite (by decide)
  have hjudged := Engine.draft7_eq_judging ▸ htype
  obtain ⟨canonical, hcheck, _, hstrict, _⟩ :=
    Schema.conforms_of_reached boundFromOutside (by decide) 0 _ _ .coercing hjudged hm
  exact ⟨type, m, canonical, htype, hm, hvalue, hcheck, hstrict⟩

/-- A nested instance keeps a text that only the schema around its object converts, and without conversion
the schema does not accept what is stored. -/
theorem exists_reached_not_conforming :
    ∃ type m, boundFromOutside.compileModel 0 Engine.draft7 .coercing = .ok type ∧
      type.Reached ModelStep.isWrite true m ∧ type.check m.toJson = .ok (.obj [("n", .obj [("x", .num (.int 5))])]) ∧
      m.toJson = .obj [("n", .obj [("x", .str "5")])] ∧ (type.validator .strict m.toJson).toBool = false := by
  have hrun : yields (boundFromOutside.compileModel 0 Engine.draft7 .coercing) fun type =>
      yields (type.create (.obj [("n", .obj [("x", .str "5")])])) fun m =>
        yields (type.check m.toJson) fun canonical =>
          canonical = Json.obj [("n", .obj [("x", .num (.int 5))])] &&
            m.toJson = Json.obj [("n", .obj [("x", .str "5")])] &&
            !(type.validator .strict m.toJson).toBool := by decide +kernel
  obtain ⟨type, htype, hrun⟩ := exists_of_yields hrun
  obtain ⟨m, hm, hrun⟩ := exists_of_yields hrun
  obtain ⟨canonical, hcheck, hvalues⟩ := exists_of_yields hrun
  simp only [Bool.and_eq_true, decide_eq_true_eq, Bool.not_eq_true'] at hvalues
  obtain ⟨⟨rfl, hstored⟩, hrefused⟩ := hvalues
  exact ⟨type, m, htype, .create hm, hcheck, hstored, hrefused⟩

end Stored
end SchemaBound
