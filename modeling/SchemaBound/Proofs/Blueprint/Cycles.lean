import SchemaBound.Proofs.Blueprint.Traversal

/-! Compilations end. What they accept contains no object in itself, and only where a schema leads back to
itself do they call it cyclic. -/
namespace SchemaBound
open Place Relation

namespace Compilation
open Step

variable {job : Compilation} {document : Json} {place : Place}

section Order

variable {keys : List String}

private theorem mem_of_contains (h : IsOrdered document keys) {object : Place} (hp : Reached document place)
    (hk : place.pointer ∈ keys) (hcontains : Contains document place object) : object.pointer ∈ keys := by
  induction keys with
  | nil => cases hk
  | cons k rest ih =>
    obtain ⟨hrest, hfirst⟩ := h
    rcases List.mem_cons.mp hk with hk | hk
    · exact List.mem_cons_of_mem _ (hfirst place object hp hk hcontains)
    · exact List.mem_cons_of_mem _ (ih hrest hk)

private theorem mem_of_containsStar (h : IsOrdered document keys) {object : Place} (hp : Reached document place)
    (hk : place.pointer ∈ keys) (hcontains : ReflTransGen (Contains document) place object) :
    object.pointer ∈ keys := by
  induction hcontains with
  | refl => exact hk
  | tail hway hstep ih => exact mem_of_contains h (hp.containsStar hway) ih hstep

/-- Going from an object to one that it contains, one goes on in the list, so one never comes back. -/
private theorem not_recurs_of_isOrdered (h : IsOrdered document keys) (hp : Reached document place)
    (hk : place.pointer ∈ keys) : ¬ Recurs (Contains document) place := by
  induction keys with
  | nil => cases hk
  | cons k rest ih =>
    obtain ⟨hrest, hfirst⟩ := h
    by_cases hmem : place.pointer ∈ rest
    · exact ih hrest hmem
    · rintro ⟨again, hway, hpointer⟩
      have hplace : place.pointer = k := (List.mem_cons.mp hk).resolve_right hmem
      obtain ⟨object, hobject, hback⟩ := TransGen.head'_iff.mp hway
      have hobjectMem := hfirst place object hp hplace hobject
      have hagain := mem_of_containsStar hrest (hp.contains hobject).1 hobjectMem hback
      exact hmem (hpointer ▸ hagain)

/-- What has been compiled contains no object in itself. -/
theorem Ends.not_recurs (hd : job.document.hasDistinctNames) {done : Progress} (h : job.Ends done) {top : Place}
    (htop : (root job.document).resolve job.document = .ok top)
    (hway : ReflTransGen (Contains job.document) top place) : ¬ Recurs (Contains job.document) place := by
  have hreached : Reached job.document top := Reached.root.resolve htop
  cases h with
  | object hsame _ hknows =>
    obtain rfl := Except.ok.inj (htop.symm.trans hsame)
    have hk := mem_of_containsStar hknows.ordered hreached (hknows.known _ rfl) hway
    exact not_recurs_of_isOrdered hknows.ordered (hreached.containsStar hway) hk
  | array hsame hshape hknows =>
    obtain rfl := Except.ok.inj (htop.symm.trans hsame)
    have hmem {object : Place} (hobject : Contains job.document top object) :
        object.pointer ∈ done.models.map (·.1) := by
      cases hobject with
      | property hother _ _ => cases hother.ofPlace.symm.trans hshape.ofPlace
      | element _ hobject => exact hknows.known _ ⟨object, hobject, rfl⟩
    rcases hway.cases_head with rfl | ⟨object, hobject, hrest⟩
    · -- No object contains the array at the root, since it is no object itself.
      rintro ⟨again, hback, hpointer⟩
      obtain ⟨last, hlast, hstep⟩ := TransGen.tail'_iff.mp hback
      obtain ⟨hagain, hobject⟩ := (hreached.containsStar hlast).contains hstep
      obtain rfl := hagain.eq_of_pointer hd hreached hpointer
      cases hobject.ofPlace.symm.trans hshape.ofPlace
    · have hobjectReached := (hreached.contains hobject).1
      have hk := mem_of_containsStar hknows.ordered hobjectReached (hmem hobject) hrest
      exact not_recurs_of_isOrdered hknows.ordered (hreached.containsStar hway) hk

end Order

section Termination

variable {next next' : List String → Place → Step ModelType}

/-- One layer of the compilation of an object node, with `next` for the objects that it contains. -/
def modelBy (job : Compilation) (next : List String → Place → Step ModelType) (pending : List String)
    (place : Place) : Step ModelType := do
  match (← get).models.lookup place.pointer with
  | some type => return type
  | none =>
    if place.pointer ∈ pending then throw (.cyclic place.pointer)
    let fields ← (← properties place).mapM (job.fieldBy (next (place.pointer :: pending)) place)
    let validator ← job.hand place
    let title := (place.node.get? "title").bind Json.text?
    let type : ModelType := ⟨⟨job.number, place.pointer⟩, title, fields, validator, job.options⟩
    modify fun done => { done with models := (place.pointer, type) :: done.models }
    return type

theorem modelTypeIn_eq_iterate (job : Compilation) (depth : Nat) :
    job.modelTypeIn depth = job.modelBy^[depth] fun _ place => throw (.cyclic place.pointer) := by
  induction depth with
  | zero => rfl
  | succ depth ih =>
    rw [Function.iterate_succ_apply', ← ih]
    funext pending place
    rw [modelTypeIn]
    rfl

private theorem lift_bind_congr {α β : Type} {result : Except SchemaError α} {f g : α → Step β}
    (h : ∀ a, result = .ok a → f a = g a) : (liftM result : Step α) >>= f = (liftM result : Step α) >>= g := by
  cases result with
  | ok a => exact h a rfl
  | error e => rfl

private theorem throw_bind_eq {α β : Type} (e : SchemaError) (f g : α → Step β) :
    (throw e : Step α) >>= f = (throw e : Step α) >>= g := rfl

private theorem sequenceType_congr {compile compile' : Place → Step ModelType}
    (h : ∀ object, Elements.object? job.document place = .ok (some object) → compile object = compile' object) :
    job.sequenceType compile place = job.sequenceType compile' place := by
  unfold sequenceType
  refine bind_congr fun done => ?_
  split
  · rfl
  · refine lift_bind_congr fun object? hobject => ?_
    cases object? with
    | none => rfl
    | some object => dsimp only; rw [h object hobject]

private theorem fieldBy_congr {compile compile' : Place → Step ModelType} {rule : String × Json}
    (h : ∀ object, Holds job.document (rulePlace place rule) object → compile object = compile' object) :
    job.fieldBy compile place rule = job.fieldBy compile' place rule := by
  unfold fieldBy
  refine lift_bind_congr fun target hresolve => ?_
  have hnone := noReference_of_resolve hresolve
  refine lift_bind_congr fun shape hshape => ?_
  cases shape with
  | object =>
    dsimp only
    rw [h target (.object hresolve ⟨hnone, hshape⟩)]
  | array =>
    dsimp only
    rw [sequenceType_congr fun object hobject => h object (.array hresolve ⟨hnone, hshape⟩ hobject)]
  | union => rfl
  | scalar => rfl

private theorem modelBy_congr (hs : HasShape job.document place .object) {pending : List String}
    (h : place.pointer ∉ pending → ∀ object, Contains job.document place object →
      next (place.pointer :: pending) object = next' (place.pointer :: pending) object) :
    job.modelBy next pending place = job.modelBy next' pending place := by
  unfold modelBy
  refine bind_congr fun done => ?_
  split
  · rfl
  · split
    · exact throw_bind_eq _ _ _
    · rename_i hnew
      refine lift_bind_congr fun rules hrules => ?_
      have hfields : rules.mapM (job.fieldBy (next (place.pointer :: pending)) place) =
          rules.mapM (job.fieldBy (next' (place.pointer :: pending)) place) := by
        refine Success.mapM_congr fun rule hrule => fieldBy_congr fun object hholds => ?_
        have hdeclares : Place.Declares place (rulePlace place rule) := ⟨rules, rule.1, rule.2, hrules, hrule, rfl⟩
        exact h hnew object (.property hs hdeclares hholds)
      rw [hfields]

/-- An object is compiled in no more layers than there are pointers left to pass. -/
private theorem iterate_modelBy_eq (hp : Reached job.document place) (hs : HasShape job.document place .object)
    {depth : Nat} {pending : List String} (hfits : Fits job.document pending depth) {n m : Nat} (hn : depth ≤ n)
    (hm : depth ≤ m) : job.modelBy^[n] next pending place = job.modelBy^[m] next' pending place := by
  induction depth generalizing place pending n m with
  | zero => exact (not_fits_zero hfits).elim
  | succ depth ih =>
    obtain ⟨n, rfl⟩ := Nat.exists_eq_succ_of_ne_zero (by omega : n ≠ 0)
    obtain ⟨m, rfl⟩ := Nat.exists_eq_succ_of_ne_zero (by omega : m ≠ 0)
    rw [Function.iterate_succ_apply', Function.iterate_succ_apply']
    refine modelBy_congr hs fun hnew object hobject => ?_
    obtain ⟨hreached, hshape⟩ := hp.contains hobject
    exact ih hreached hshape (hfits.cons hp hnew) (by omega) (by omega)

end Termination

/-- Neither objects in objects nor alternatives in alternatives are followed deeper than their bounds: whatever
stands for the calls below the bounds, the outcome is the same. -/
structure Terminates (job : Compilation) : Prop where
  models : ∀ place, Reached job.document place → HasShape job.document place .object →
    ∀ next depth, placeBound job.document ≤ depth → job.modelBy^[depth] next [] place = job.modelType place
  expansions : ∀ array rule, Reached job.document array → HasShape job.document array .array →
    rule ∈ Elements.stated array → ∀ next depth, Elements.nestingBound job.document ≤ depth →
    (Elements.expandBy job.document)^[depth] next rule = Elements.expand job.document rule

theorem terminates (hloops : Elements.IsLoopFree job.document) : job.Terminates := by
  refine ⟨fun place hp hs next depth hdepth => ?_, fun array rule ha hs hrule next depth hdepth => ?_⟩
  · unfold modelType
    rw [modelTypeIn_eq_iterate]
    exact iterate_modelBy_eq hp hs (fits_start _) hdepth (Nat.le_refl _)
  · unfold Elements.expand
    rw [Elements.expandIn_eq_iterate]
    exact (hloops.endsWithin ha hs hrule).iterate_eq hdepth (Nat.le_refl _) _ _

/-- The document is accepted as the description of an object or of an array. -/
def Succeeds (job : Compilation) : Prop :=
  (∃ type, (run job.rootModel).1 = .ok type) ∨ ∃ type, (run job.rootSequence).1 = .ok type

/-- The document is refused with this error, as the description of an object or of an array. -/
def FailsWith (job : Compilation) (e : SchemaError) : Prop :=
  (run job.rootModel).1 = .error e ∨ (run job.rootSequence).1 = .error e

theorem Succeeds.exists_ends (h : job.Succeeds) (hd : job.document.hasDistinctNames) :
    ∃ done, job.Ends done := by
  rcases h with ⟨type, h⟩ | ⟨type, h⟩
  · obtain ⟨done, hends, _⟩ := (meets_rootModel hd).run.1 type h
    exact ⟨done, hends⟩
  · obtain ⟨done, hends, _⟩ := (meets_rootSequence hd).run.1 type h
    exact ⟨done, hends⟩

theorem FailsWith.isFounded {e : SchemaError} (h : job.FailsWith e) (hd : job.document.hasDistinctNames) :
    job.IsFounded e := by
  rcases h with h | h
  · exact (meets_rootModel hd).run.2 e h
  · exact (meets_rootSequence hd).run.2 e h

/-- Where expansions of rules for elements do not loop, a compilation ends. If it succeeds, nothing that the
root contains contains itself. If the schema is called cyclic though chains are within the limits, it is. -/
theorem cycles_of_isLoopFree (job : Compilation) (hd : job.document.hasDistinctNames)
    (hloops : Elements.IsLoopFree job.document) :
    job.Terminates ∧
    (job.Succeeds → ∀ top place, (root job.document).resolve job.document = .ok top →
      ReflTransGen (Contains job.document) top place → ¬ Recurs (Contains job.document) place) ∧
    (ChainsWithin job.document (Refers job.document) 31 → ChainsWithin job.document (Nests job.document) 32 →
      (∀ node k, job.engine node ≠ .error (.cyclic k)) →
      ∀ k, job.FailsWith (.cyclic k) → HasCycle job.document) := by
  refine ⟨terminates hloops, fun hsucceeds top place htop hway => ?_, fun hrefers hnests hengine k hfails => ?_⟩
  · obtain ⟨done, hends⟩ := hsucceeds.exists_ends hd
    exact hends.not_recurs hd htop hway
  · have hwithin : job.WithinLimits := ⟨hloops, hrefers, hnests, hengine⟩
    exact hfails.isFounded hd hwithin k rfl

section Samples

/-- A list of objects or nulls, each object with a rule for `more`. -/
def listOf (more : Json) : Json := .obj [
  ("type", .str "array"),
  ("items", .obj [("anyOf", .arr [.obj [("$ref", .str "#/definitions/n")], .obj [("type", .str "null")]])]),
  ("definitions", .obj [("n", .obj [("type", .str "object"), ("properties", .obj [("more", more)])])])]

/-- Objects with lists of such objects. -/
def nestedLists : Compilation :=
  ⟨0, listOf (.obj [("type", .str "array"), ("items", .obj [("$ref", .str "#/definitions/n")])]),
    Engine.draft7, .strict⟩

/-- Objects with lists of integers. -/
def flatLists : Compilation :=
  ⟨0, listOf (.obj [("type", .str "array"), ("items", .obj [("type", .str "integer")])]), Engine.draft7, .strict⟩

/-- No alternative is a list of alternatives itself. -/
private def isFlat (document : Json) : Bool :=
  (all document).all fun place =>
    match Elements.alternatives? place.node with
    | none => true
    | some (keyword, items) => (place.entries keyword items).all fun entry =>
      match entry.resolve document with
      | .ok found => (Elements.alternatives? found.node).isNone
      | .error _ => true

private theorem isLoopFree_of_isFlat (hd : document.hasDistinctNames) (h : isFlat document) :
    Elements.IsLoopFree document := by
  intro array rule first inner ha hs hrule hresolve hway hrecurs
  have hinner := ((Reached.element ha hs hrule).resolve hresolve).nestsStar hway
  obtain ⟨again, hback, hpointer⟩ := hrecurs
  obtain ⟨second, hfirst, _⟩ := TransGen.head'_iff.mp hback
  obtain ⟨last, hlast, entry, ⟨_, keyword, items, halt, hentry⟩, hagain⟩ := TransGen.tail'_iff.mp hback
  have hlastReached := hinner.nestsStar hlast
  have hflat : (Elements.alternatives? again.node).isNone := by
    have hplace := List.all_eq_true.mp h last hlastReached.mem_all
    simp only [halt] at hplace
    have hlisted := List.all_eq_true.mp hplace entry hentry
    simpa only [hagain] using hlisted
  have hsame : again = inner := by
    have hnests : Nests document last again := ⟨entry, ⟨by assumption, keyword, items, halt, hentry⟩, hagain⟩
    exact (hlastReached.nests hnests).eq_of_pointer hd hinner hpointer
  obtain ⟨_, ⟨_, keyword', items', halt', _⟩, _⟩ := hfirst
  rw [hsame, halt'] at hflat
  cases hflat

private theorem chainsWithin_of_length_le {step : Place → Place → Prop} {bound : Nat}
    (hstep : ∀ place target, Reached document place → step place target → Reached document target)
    (h : (all document).length ≤ bound + 1) : ChainsWithin document step bound := by
  intro place chain hp hchain hnodup
  have hmem : ∀ k ∈ (place :: chain).map pointer, k ∈ (all document).map pointer := by
    have hreached {chain : List Place} {place : Place} (hp : Reached document place)
        (hchain : List.IsChain step (place :: chain)) : ∀ p ∈ place :: chain, Reached document p := by
      induction chain generalizing place with
      | nil =>
        intro p hmem
        obtain rfl := List.mem_singleton.mp hmem
        exact hp
      | cons next rest ih =>
        obtain ⟨hfirst, hrest⟩ := List.isChain_cons_cons.mp hchain
        intro p hmem
        rcases List.mem_cons.mp hmem with rfl | hmem
        · exact hp
        · exact ih (hstep _ _ hp hfirst) hrest p hmem
    intro k hk
    obtain ⟨p, hpmem, rfl⟩ := List.mem_map.mp hk
    exact List.mem_map_of_mem (hreached hp hchain p hpmem).mem_all
  have hle := hnodup.length_le_of_subset hmem
  rw [List.length_map, List.length_map, List.length_cons] at hle
  omega

private theorem draft7_ne_cyclic (node : Json) (k : String) : Engine.draft7 node ≠ .error (.cyclic k) := by
  have hinspect (node : Json) : Engine.inspect node ≠ .error (.cyclic k) := by
    unfold Engine.inspect
    split <;> nofun
  intro h
  rcases Failure.bind_eq_error.mp h with h | ⟨_, _, h⟩
  · exact hinspect _ h
  · rcases Failure.bind_eq_error.mp h with h | ⟨_, _, h⟩
    · exact hinspect _ h
    · exact Failure.pure_ne_error h

/-- Lists of lists are called cyclic, and are; the flat ones are accepted, and nothing in them contains
itself. -/
theorem cycles_of_nestedLists :
    (nestedLists.FailsWith (.cyclic "#/definitions/n") ∧ HasCycle nestedLists.document) ∧
      flatLists.Succeeds ∧ ∀ top place, (root flatLists.document).resolve flatLists.document = .ok top →
        ReflTransGen (Contains flatLists.document) top place → ¬ Recurs (Contains flatLists.document) place := by
  have hnested : nestedLists.document.hasDistinctNames := by decide
  have hflat : flatLists.document.hasDistinctNames := by decide
  have hnestedLoops := isLoopFree_of_isFlat hnested (by decide +kernel)
  have hflatLoops := isLoopFree_of_isFlat hflat (by decide +kernel)
  refine ⟨?_, ?_⟩
  · have hrun : (match (run nestedLists.rootSequence).1 with
        | .ok _ => false
        | .error e => e = .cyclic "#/definitions/n") = true := by decide +kernel
    have hfails : nestedLists.FailsWith (.cyclic "#/definitions/n") := by
      split at hrun
      · cases hrun
      · rename_i e he
        exact Or.inr (of_decide_eq_true hrun ▸ he)
    have hlength : (all nestedLists.document).length ≤ 32 := by decide +kernel
    have hrefers := chainsWithin_of_length_le (fun _ _ hp h => Reached.reference hp h) hlength
    have hnests := chainsWithin_of_length_le (fun _ _ hp h => Reached.nests hp h) (Nat.le_succ_of_le hlength)
    exact ⟨hfails, (cycles_of_isLoopFree nestedLists hnested hnestedLoops).2.2 hrefers hnests draft7_ne_cyclic _ hfails⟩
  · have hrun : Success.yields (run flatLists.rootSequence).1 fun _ => true := by decide +kernel
    obtain ⟨type, htype, _⟩ := Success.exists_of_yields hrun
    have hsucceeds : flatLists.Succeeds := Or.inr ⟨type, htype⟩
    exact ⟨hsucceeds, (cycles_of_isLoopFree flatLists hflat hflatLoops).2.1 hsucceeds⟩

end Samples

end Compilation
end SchemaBound
