import SchemaBound.Proofs.Program.FailureOrigins

/-! Nested failures with their full positions. However deep the instance is in which an operation fails, and whether
programs, pointers or data lead to it, all operations around it fail with the same violations, at the positions that
they have from the outermost instance. -/
namespace SchemaBound
namespace Operation

variable [Memory]

/-- The first operation comes to run the second one. The tokens lead from its instance to that of the second one:
names of fields, and indices in the arrays that are to be checked. -/
inductive Leads : Operation → List String → Operation → Prop
  | here (op : Operation) : Leads op [] op
  | there {outer middle inner : Operation} {tokens chain : List String} : outer.Enters tokens middle →
      middle.Leads chain inner → Leads outer (tokens ++ chain) inner

variable {op inner : Operation} {chain : List String} {violations seen : List Violation}

/-- A failure goes through all operations around, and collects the tokens on its way out. -/
theorem Leads.fails (h : op.Leads chain inner) {cause : Error} (hfails : inner.Fails cause) :
    op.Fails (cause.along chain) := by
  induction h with
  | here => exact hfails
  | there henters _ ih =>
    rw [Error.along_append]
    exact henters.fails (ih hfails)

/-- Every violation that is reported was raised somewhere inside. -/
theorem Fails.exists_origin {op : Operation} {seen : List Violation} (h : op.Fails (.validation seen)) :
    ∃ chain inner violations, op.Leads chain inner ∧ inner.Raises violations ∧
      seen = violations.map (·.along chain) := by
  rcases h.explained with ⟨tokens, middle, cause, henters, hmiddle, hcause⟩ | howns
  · obtain ⟨raw, rfl, rfl⟩ := Error.exists_of_along_eq_validation hcause.symm
    obtain ⟨chain, inner, violations, hleads, hraises, rfl⟩ := hmiddle.exists_origin
    refine ⟨tokens ++ chain, inner, violations, .there henters hleads, hraises, ?_⟩
    rw [List.map_map]
    exact List.map_congr_left fun v _ => (Violation.along_append tokens chain v).symm
  · refine ⟨[], op, seen, .here op, howns seen rfl, ?_⟩
    exact (List.map_id seen).symm
termination_by op.rank
decreasing_by exact henters.rank_lt

omit [Memory] in
theorem forall₂_reportedAlong (hnames : "" ∉ chain) (violations : List Violation) :
    List.Forall₂ (Violation.ReportedAlong chain) violations (violations.map (·.along chain)) := by
  rw [List.forall₂_map_right_iff, List.forall₂_same]
  exact fun v _ => Violation.reportedAlong hnames v

/-- Failures of the operation read as if the outermost instance had been checked. -/
structure ReportsPositions (op : Operation) : Prop where
  reported : ∀ {chain inner violations}, op.Leads chain inner → "" ∉ chain → inner.Fails (.validation violations) →
    ∃ seen, op.Fails (.validation seen) ∧ List.Forall₂ (Violation.ReportedAlong chain) violations seen
  /-- The indices are those in the array that is to be checked. -/
  indices : ∀ {chain outer tokens type placement inputs}, op.Leads chain outer →
    outer.Enters tokens (.put type placement inputs) → placement.Fits inputs.length
  others : ∀ {chain inner e}, op.Leads chain inner → (∀ violations, e ≠ .validation violations) → inner.Fails e →
    op.Fails e
  origin : ∀ {seen}, op.Fails (.validation seen) → ∃ chain inner violations, op.Leads chain inner ∧
    inner.Raises violations ∧ ("" ∉ chain → List.Forall₂ (Violation.ReportedAlong chain) violations seen)

/-- Whatever the types and what they check, failures of all operations are reported with their full positions. -/
theorem reportsPositions (op : Operation) : op.ReportsPositions where
  reported {chain inner violations} hleads hnames hfails := by
    refine ⟨violations.map (·.along chain), ?_, forall₂_reportedAlong hnames violations⟩
    rw [← Error.along_validation]
    exact hleads.fails hfails
  indices _ henters := henters.fits
  others {chain inner e} hleads he hfails := by
    rw [← Error.along_of_ne_validation he chain]
    exact hleads.fails hfails
  origin {seen} hfails := by
    obtain ⟨chain, inner, violations, hleads, hraises, rfl⟩ := hfails.exists_origin
    exact ⟨chain, inner, violations, hleads, hraises, fun hnames => forall₂_reportedAlong hnames violations⟩

end Operation

/-- The violations of Draft 7 are placed. -/
theorem Engine.isPlaced_of_validator {node v : Json} {options : Options} {violations : List Violation}
    (h : Engine.validator node options v = .error violations) : ∀ violation ∈ violations, violation.IsPlaced := by
  have hfinding (f : Finding) : f.toViolation.IsPlaced := by
    unfold Finding.toViolation Violation.IsPlaced
    dsimp only
    split
    · decide
    · rename_i htokens
      obtain ⟨token, rest, hrest⟩ := List.exists_cons_of_ne_nil htokens
      rw [hrest, Pointer.toList_ofTokens_cons]
      rfl
  unfold Engine.validator Engine.validatorBy at h
  dsimp only at h
  split at h
  · cases h
  · obtain rfl := Except.error.inj h
    intro violation hviolation
    obtain ⟨f, _, rfl⟩ := List.mem_map.mp hviolation
    exact hfinding f

/-- A text that is too long, in the second of some rows under a name that a pointer has to escape. -/
example :
    let row := Json.obj [("type", .str "object"), ("properties", .obj [("c~d", .obj [("maxLength", .num (.int 1))])])]
    let schema : Schema := ⟨.obj [("type", .str "object"),
      ("properties", .obj [("a/b", .obj [("type", .str "array"), ("items", row)])])]⟩
    Success.yields (schema.compileModel 0 Engine.draft7 .strict) fun type =>
      match type.empty.set "a/b" (.plain (.arr [.obj [], .obj [("c~d", .str "xy")]])) with
      | .error (.validation [v]) => v.path = "/a~1b/1/c~0d" ∧ v.keyword = "maxLength"
      | _ => False := by
  decide +kernel

end SchemaBound
