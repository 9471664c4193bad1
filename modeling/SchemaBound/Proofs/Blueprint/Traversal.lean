import SchemaBound.Proofs.Blueprint.Expansion
import SchemaBound.Proofs.Blueprint.Outcomes

/-! One account of a whole compilation: what it hands to the engine, in which order it finishes objects, and
what makes it give up. -/
namespace SchemaBound

open Place Relation

/-- From the root of the document one comes to references that lead in a circle, to alternatives nested in
themselves, or to an object that contains itself. -/
inductive HasCycle (document : Json) : Prop
  | references {place : Place} : Reached document place → Recurs (Refers document) place → HasCycle document
  | alternatives {place : Place} : Reached document place → Recurs (Nests document) place → HasCycle document
  | containment {top place : Place} :
      (root document).resolve document = .ok top → ReflTransGen (Contains document) top place →
      Recurs (Contains document) place → HasCycle document

namespace Compilation
open Step

/-- Expansions of rules for elements do not loop, chains of references and of nested alternatives are short
unless they are circles, and the engine itself takes no schema for a circle. -/
structure WithinLimits (job : Compilation) : Prop where
  items : Elements.IsLoopFree job.document
  references : ChainsWithin job.document (Refers job.document) 31
  alternatives : ChainsWithin job.document (Nests job.document) 32
  engine : ∀ node k, job.engine node ≠ .error (.cyclic k)

/-- An error that says that the schema is cyclic is right. -/
def IsFounded (job : Compilation) (e : SchemaError) : Prop :=
  job.WithinLimits → ∀ k, e = .cyclic k → HasCycle job.document

/-- The pointers of all that an object contains stand behind its own. -/
def IsOrdered (document : Json) : List String → Prop
  | [] => True
  | k :: rest => IsOrdered document rest ∧ ∀ place object, Reached document place → place.pointer = k →
      Contains document place object → object.pointer ∈ rest

/-- What is true of the progress of a compilation that has finished objects at the known pointers, and maybe
others. -/
structure Knows (job : Compilation) (known : String → Prop) (done : Progress) : Prop where
  handed : ∀ handed ∈ done.handed, ∃ place, Reached job.document place ∧
    handed = ⟨place.pointer, standalone job.document place⟩
  ordered : IsOrdered job.document (done.models.map (·.1))
  elements : ∀ k ∈ done.sequences.map (·.1), ∀ array object, Reached job.document array → array.pointer = k →
    Elements.object? job.document array = .ok (some object) → object.pointer ∈ done.models.map (·.1)
  known : ∀ k, known k → k ∈ done.models.map (·.1)

variable {job : Compilation} {place : Place} {known known' : String → Prop} {done : Progress}

theorem Knows.mono (h : job.Knows known done) (himp : ∀ k, known' k → known k) : job.Knows known' done :=
  ⟨h.handed, h.ordered, h.elements, fun k hk => h.known k (himp k hk)⟩

theorem knows_start (job : Compilation) : job.Knows (fun _ => False) ⟨[], [], []⟩ :=
  ⟨fun _ h => absurd h List.not_mem_nil, trivial, fun _ h => absurd h List.not_mem_nil, fun _ h => h.elim⟩

theorem Knows.hand (h : job.Knows known done) (hp : Reached job.document place) :
    job.Knows known { done with handed := done.handed ++ [⟨place.pointer, standalone job.document place⟩] } := by
  refine ⟨fun handed hmem => ?_, h.ordered, h.elements, h.known⟩
  rcases List.mem_append.mp hmem with hmem | hmem
  · exact h.handed handed hmem
  · exact ⟨place, hp, List.mem_singleton.mp hmem⟩

theorem Knows.finishModel (hd : job.document.hasDistinctNames) (h : job.Knows known done)
    (hp : Reached job.document place)
    (hcontains : ∀ object, Contains job.document place object → known object.pointer) (type : ModelType) :
    job.Knows (fun k => known k ∨ k = place.pointer)
      { done with models := (place.pointer, type) :: done.models } := by
  refine ⟨h.handed, ⟨h.ordered, ?_⟩, ?_, ?_⟩
  · intro same object hsame hpointer hobject
    obtain rfl := hsame.eq_of_pointer hd hp hpointer
    exact h.known _ (hcontains object hobject)
  · intro k hk array object harray hpointer hobject
    exact List.mem_cons_of_mem _ (h.elements k hk array object harray hpointer hobject)
  · intro k hk
    rcases hk with hk | rfl
    · exact List.mem_cons_of_mem _ (h.known k hk)
    · exact List.mem_cons_self

theorem Knows.finishSequence (hd : job.document.hasDistinctNames) (h : job.Knows known done)
    (hp : Reached job.document place)
    (helement : ∀ object, Elements.object? job.document place = .ok (some object) → known object.pointer)
    (type : SequenceType) :
    job.Knows known { done with sequences := (place.pointer, type) :: done.sequences } := by
  refine ⟨h.handed, h.ordered, ?_, h.known⟩
  intro k hk array object harray hpointer hobject
  rcases List.mem_cons.mp hk with rfl | hk
  · obtain rfl := harray.eq_of_pointer hd hp hpointer
    exact h.known _ (helement object hobject)
  · exact h.elements k hk array object harray hpointer hobject

private theorem mem_of_lookup {α : Type} {entries : List (String × α)} {k : String} {a : α}
    (h : entries.lookup k = some a) : k ∈ entries.map (·.1) := by
  obtain ⟨before, after, rfl, _⟩ := List.lookup_eq_some_iff.mp h
  simp

section Founded

variable {e : SchemaError}

theorem isFounded_of_ne (h : ∀ k, e ≠ .cyclic k) : job.IsFounded e := fun _ k hk => absurd hk (h k)

theorem isFounded_of_resolve (hp : Reached job.document place) (h : place.resolve job.document = .error e) :
    job.IsFounded e := by
  rintro hwithin k rfl
  obtain ⟨again, hreached, hrecurs⟩ := recurs_of_resolve hwithin.references hp h
  exact .references hreached hrecurs

theorem isFounded_of_ofPlace (hp : Reached job.document place) (hnone : place.node.get? "$ref" = none)
    (h : Shape.ofPlace job.document place = .error e) : job.IsFounded e := by
  rintro hwithin k rfl
  rcases Shape.exists_chain_of_ofPlaceIn hnone h with
    ⟨chain, hchain, hlength⟩ | ⟨inner, entry, k', hway, hoffers, hresolve⟩
  · have hlong : 32 < chain.length := by
      rw [hlength]
      decide
    obtain ⟨again, hway, hrecurs⟩ := hwithin.alternatives.exists_recurs hp hchain hlong
    exact .alternatives (hp.nestsStar hway) hrecurs
  · have hentry := Reached.alternative (hp.nestsStar hway) hoffers
    exact isFounded_of_resolve hentry hresolve hwithin k' rfl

theorem isFounded_of_object (hp : Reached job.document place) (hs : HasShape job.document place .array)
    (h : Elements.object? job.document place = .error e) : job.IsFounded e := by
  rintro hwithin k rfl
  rcases Elements.exists_of_object_cyclic hwithin.items hp hs h with
    ⟨entry, k', hentry, hresolve⟩ | ⟨found, k', hfound, hnone, hshape⟩
  · exact isFounded_of_resolve hentry hresolve hwithin k' rfl
  · exact isFounded_of_ofPlace hfound hnone hshape hwithin k' rfl

private theorem properties_ne_cyclic {k : String} : properties place ≠ .error (.cyclic k) := by
  unfold properties
  split <;> nofun

end Founded

theorem meets_hand (hp : Reached job.document place) :
    Meets (job.Knows known) (job.hand place) (fun _ => job.Knows known) job.IsFounded := by
  unfold hand
  have hmark := fun done (h : job.Knows known done) => h.hand hp
  refine (meets_modify hmark).bind fun _ => ?_
  split
  · exact meets_pure fun _ h => h
  · exact meets_throw (isFounded_of_ne nofun)
  · rename_i e _ he
    refine meets_throw ?_
    rintro hwithin k rfl
    exact absurd he (hwithin.engine _ k)

/-- The last steps for an array node, once the object of its elements is finished. -/
private theorem meets_finishSequence (hd : job.document.hasDistinctNames) (hp : Reached job.document place)
    (helement : ∀ object, Elements.object? job.document place = .ok (some object) → known object.pointer)
    (element : Option ModelType) :
    Meets (job.Knows known)
      (do
        let validator ← job.hand place
        let type : SequenceType := ⟨⟨job.number, place.pointer⟩, element, validator, job.options⟩
        modify fun done => { done with sequences := (place.pointer, type) :: done.sequences }
        return type)
      (fun _ => job.Knows known) job.IsFounded := by
  refine (meets_hand hp).bind fun validator => ?_
  have hstore := fun done (h : job.Knows known done) => h.finishSequence hd hp helement
    ⟨⟨job.number, place.pointer⟩, element, validator, job.options⟩
  exact (meets_modify hstore).bind fun _ => meets_pure fun _ h => h

theorem meets_sequenceType (hd : job.document.hasDistinctNames) (hp : Reached job.document place)
    (hs : HasShape job.document place .array) {compileElement : Place → Step ModelType}
    (hc : ∀ object, Elements.object? job.document place = .ok (some object) →
      Meets (job.Knows known) (compileElement object)
        (fun _ => job.Knows fun k => known k ∨ k = object.pointer) job.IsFounded) :
    Meets (job.Knows known) (job.sequenceType compileElement place)
      (fun _ => job.Knows fun k => known k ∨
        ∃ object, Elements.object? job.document place = .ok (some object) ∧ k = object.pointer)
      job.IsFounded := by
  unfold sequenceType
  refine meets_get.bind fun found => ?_
  split
  · rename_i type htype
    refine meets_pure fun done hdone => ?_
    obtain ⟨rfl, h⟩ := hdone
    refine ⟨h.handed, h.ordered, h.elements, fun k hk => ?_⟩
    rcases hk with hk | ⟨object, hobject, rfl⟩
    · exact h.known k hk
    · exact h.elements _ (mem_of_lookup htype) place object hp rfl hobject
  · refine Meets.mono ?_ (fun _ h => h.2) fun _ _ h => h
    refine meets_lift (fun object? hobject? => ?_) fun e h => isFounded_of_object hp hs h
    cases object? with
    | none =>
      have hnone : ∀ object, Elements.object? job.document place = .ok (some object) → known object.pointer := by
        intro object hobject
        rw [hobject?] at hobject
        cases hobject
      have hpure : Meets (job.Knows known) (pure none : Step (Option ModelType)) (fun _ => job.Knows known)
          job.IsFounded := meets_pure fun _ h => h
      refine hpure.bind fun element => ?_
      refine (meets_finishSequence hd hp hnone element).mono (fun _ h => h) fun _ _ h => h.mono fun k hk => ?_
      rcases hk with hk | ⟨object, hobject, rfl⟩
      · exact hk
      · exact hnone object hobject
    | some object =>
      have hsome : ∀ other, Elements.object? job.document place = .ok (some other) →
          known other.pointer ∨ other.pointer = object.pointer := by
        intro other hother
        rw [hobject?] at hother
        obtain rfl := Option.some.inj (Except.ok.inj hother)
        exact Or.inr rfl
      have hcompile : Meets (job.Knows known) (some <$> compileElement object)
          (fun _ => job.Knows fun k => known k ∨ k = object.pointer) job.IsFounded := (hc object hobject?).map
      refine hcompile.bind fun element => ?_
      refine (meets_finishSequence hd hp hsome element).mono (fun _ h => h) fun _ _ h => h.mono fun k hk => ?_
      rcases hk with hk | ⟨other, hother, rfl⟩
      · exact Or.inl hk
      · exact hsome other hother

/-- The last steps for an object node, once all that it contains is finished. -/
private theorem meets_finishModel (hd : job.document.hasDistinctNames) (hp : Reached job.document place)
    (hcontains : ∀ object, Contains job.document place object → known object.pointer) (title : Option String)
    (fields : List Field) :
    Meets (job.Knows known)
      (do
        let validator ← job.hand place
        let type : ModelType := ⟨⟨job.number, place.pointer⟩, title, fields, validator, job.options⟩
        modify fun done => { done with models := (place.pointer, type) :: done.models }
        return type)
      (fun _ => job.Knows fun k => known k ∨ k = place.pointer) job.IsFounded := by
  refine (meets_hand hp).bind fun validator => ?_
  have hstore := fun done (h : job.Knows known done) => h.finishModel hd hp hcontains
    ⟨⟨job.number, place.pointer⟩, title, fields, validator, job.options⟩
  exact (meets_modify hstore).bind fun _ => meets_pure fun _ h => h

/-- A field's rule is read, and what it stands for is compiled. -/
theorem meets_fieldBy (hd : job.document.hasDistinctNames) {rule : String × Json}
    (hr : Reached job.document (rulePlace place rule)) (compile : Place → Step ModelType)
    (hc : ∀ object known, Holds job.document (rulePlace place rule) object →
      Meets (job.Knows known) (compile object)
        (fun _ => job.Knows fun k => known k ∨ k = object.pointer) job.IsFounded) :
    Meets (job.Knows known) (job.fieldBy compile place rule)
      (fun _ => job.Knows fun k => known k ∨
        ∃ object, Holds job.document (rulePlace place rule) object ∧ k = object.pointer)
      job.IsFounded := by
  unfold fieldBy
  refine meets_lift (fun target hresolve => ?_) fun e h => isFounded_of_resolve hr h
  have ht := hr.resolve hresolve
  have hnone := noReference_of_resolve hresolve
  refine meets_lift (fun shape hshape => ?_) fun e h => isFounded_of_ofPlace ht hnone h
  have hs : HasShape job.document target shape := ⟨hnone, hshape⟩
  have hsame {other : Place} (h : (rulePlace place rule).resolve job.document = .ok other) :
      other = target := Except.ok.inj (h.symm.trans hresolve)
  have hnothing {object : Place} (hobject : shape ≠ .object) (harray : shape ≠ .array) :
      ¬ Holds job.document (rulePlace place rule) object := by
    intro h
    cases h with
    | object h hother =>
      obtain rfl := hsame h
      exact hobject (Except.ok.inj (hshape.symm.trans hother.ofPlace))
    | array h hother _ =>
      obtain rfl := hsame h
      exact harray (Except.ok.inj (hshape.symm.trans hother.ofPlace))
  -- What the rule holds is what the compiled type brings.
  cases shape with
  | object =>
    have hkind : Meets (job.Knows known) (FieldKind.object <$> compile target)
        (fun _ => job.Knows fun k => known k ∨ k = target.pointer) job.IsFounded :=
      (hc target known (.object hresolve hs)).map
    refine hkind.bind fun kind => meets_pure fun _ h => h.mono fun k hk => hk.imp_right ?_
    rintro ⟨object, hholds, rfl⟩
    cases hholds with
    | object h _ => rw [hsame h]
    | array h harray _ =>
      obtain rfl := hsame h
      cases harray.ofPlace.symm.trans hshape
  | array =>
    have hkind : Meets (job.Knows known) (FieldKind.array <$> job.sequenceType compile target)
        (fun _ => job.Knows fun k => known k ∨
          ∃ object, Elements.object? job.document target = .ok (some object) ∧ k = object.pointer)
        job.IsFounded :=
      (meets_sequenceType hd ht hs fun object hobject => hc object known (.array hresolve hs hobject)).map
    refine hkind.bind fun kind => meets_pure fun _ h => h.mono fun k hk => hk.imp_right ?_
    rintro ⟨object, hholds, rfl⟩
    cases hholds with
    | object h hobject =>
      obtain rfl := hsame h
      cases hobject.ofPlace.symm.trans hshape
    | array h _ hobject =>
      obtain rfl := hsame h
      exact ⟨object, hobject, rfl⟩
  | union | scalar =>
    refine meets_pure fun _ h => h.mono fun k hk => ?_
    exact hk.resolve_right fun ⟨object, hholds, _⟩ => hnothing nofun nofun hholds

/-- A compilation of an object that the root contains, inside those of the objects around it. -/
theorem meets_modelTypeIn (hd : job.document.hasDistinctNames) {top : Place}
    (htop : (root job.document).resolve job.document = .ok top) (depth : Nat) (pending : List String)
    (hp : Reached job.document place) (hs : HasShape job.document place .object)
    (hway : ReflTransGen (Contains job.document) top place) (hfits : Fits job.document pending depth)
    (hpending : ∀ k ∈ pending, ∃ around, around.pointer = k ∧
      ReflTransGen (Contains job.document) top around ∧ TransGen (Contains job.document) around place) :
    Meets (job.Knows known) (job.modelTypeIn depth pending place)
      (fun _ => job.Knows fun k => known k ∨ k = place.pointer) job.IsFounded := by
  induction depth generalizing pending place known with
  | zero => exact (not_fits_zero hfits).elim
  | succ depth ih =>
    unfold modelTypeIn
    refine meets_get.bind fun found => ?_
    split
    · rename_i type htype
      refine meets_pure fun done hdone => ?_
      obtain ⟨rfl, h⟩ := hdone
      refine ⟨h.handed, h.ordered, h.elements, fun k hk => ?_⟩
      rcases hk with hk | rfl
      · exact h.known k hk
      · exact mem_of_lookup htype
    · refine Meets.mono ?_ (fun _ h => h.2) fun _ _ h => h
      split
      · rename_i hmem
        have hcycle : HasCycle job.document := by
          obtain ⟨around, hpointer, haround, hback⟩ := hpending _ hmem
          exact .containment htop haround ⟨place, hback, hpointer.symm⟩
        have hthrow : Meets (job.Knows known) (throw (.cyclic place.pointer) : Step PUnit) (fun _ _ => False)
            job.IsFounded := meets_throw fun _ _ _ => hcycle
        exact hthrow.bind fun _ _ h => h.elim
      · rename_i hnew
        refine meets_lift (fun rules hrules => ?_) fun e h => isFounded_of_ne fun k he => ?_
        · have hdeclares (rule : String × Json) (hrule : rule ∈ rules) : Place.Declares place (rulePlace place rule) :=
            ⟨rules, rule.1, rule.2, hrules, hrule, rfl⟩
          have hcompile (rule : String × Json) (hrule : rule ∈ rules) (object : Place)
              (known : String → Prop) (hholds : Holds job.document (rulePlace place rule) object) :
              Meets (job.Knows known) (job.modelTypeIn depth (place.pointer :: pending) object)
                (fun _ => job.Knows fun k => known k ∨ k = object.pointer) job.IsFounded := by
            have hobject : Contains job.document place object := .property hs (hdeclares rule hrule) hholds
            obtain ⟨hreached, hshape⟩ := hp.contains hobject
            refine ih _ hreached hshape (hway.tail hobject) (hfits.cons hp hnew) fun k hk => ?_
            rcases List.mem_cons.mp hk with rfl | hk
            · exact ⟨place, rfl, hway, .single hobject⟩
            · obtain ⟨around, hpointer, haround, hback⟩ := hpending k hk
              exact ⟨around, hpointer, haround, hback.tail hobject⟩
          have hfields := meets_mapM job.Knows
            (fun rule k => ∃ object, Holds job.document (rulePlace place rule) object ∧ k = object.pointer) rules
            (fun rule hrule known => meets_fieldBy hd (.property hp hs (hdeclares rule hrule)) _ (hcompile rule hrule))
            known
          refine hfields.bind fun fields => ?_
          have hcontains : ∀ object, Contains job.document place object →
              known object.pointer ∨ ∃ rule ∈ rules, ∃ same,
                Holds job.document (rulePlace place rule) same ∧ object.pointer = same.pointer := by
            intro object hobject
            cases hobject with
            | property _ hdeclares hholds =>
              obtain ⟨rules', name, node, hrules', hmem, rfl⟩ := hdeclares
              obtain rfl := Except.ok.inj (hrules.symm.trans hrules')
              exact Or.inr ⟨(name, node), hmem, object, hholds, rfl⟩
            | element harray _ => cases hs.ofPlace.symm.trans harray.ofPlace
          exact (meets_finishModel hd hp hcontains _ fields).mono (fun _ h => h) fun _ _ h =>
            h.mono fun k hk => hk.imp_left Or.inl
        · exact properties_ne_cyclic (he ▸ h)

/-- The progress of a compilation at its end: the root stands for an object that is finished, or for an array
whose object is. -/
inductive Ends (job : Compilation) (done : Progress) : Prop
  | object {top : Place} :
      (root job.document).resolve job.document = .ok top → HasShape job.document top .object →
      job.Knows (fun k => k = top.pointer) done → job.Ends done
  | array {top : Place} :
      (root job.document).resolve job.document = .ok top → HasShape job.document top .array →
      job.Knows (fun k => ∃ object, Elements.object? job.document top = .ok (some object) ∧ k = object.pointer)
        done →
      job.Ends done

theorem Ends.handed (h : job.Ends done) : ∀ handed ∈ done.handed, ∃ place, Reached job.document place ∧
    handed = ⟨place.pointer, standalone job.document place⟩ := by
  cases h with
  | object _ _ hknows => exact hknows.handed
  | array _ _ hknows => exact hknows.handed

theorem meets_rootModel (hd : job.document.hasDistinctNames) :
    Meets (job.Knows fun _ => False) job.rootModel (fun _ => job.Ends) job.IsFounded := by
  unfold rootModel
  refine meets_lift (fun top htop => ?_) fun e h => isFounded_of_resolve .root h
  have hp := Reached.root.resolve htop
  have hnone := noReference_of_resolve htop
  refine meets_lift (fun shape hshape => ?_) fun e h => isFounded_of_ofPlace hp hnone h
  cases shape with
  | object =>
    have hs : HasShape job.document top .object := ⟨hnone, hshape⟩
    have hmodel : Meets (job.Knows fun _ => False) (job.modelType top)
        (fun _ => job.Knows fun k => False ∨ k = top.pointer) job.IsFounded :=
      meets_modelTypeIn hd htop _ [] hp hs .refl (fits_start _) fun k hk => absurd hk List.not_mem_nil
    exact hmodel.mono (fun _ h => h) fun _ _ h => .object htop hs (h.mono fun k hk => Or.inr hk)
  | _ => exact meets_throw (isFounded_of_ne nofun)

theorem meets_rootSequence (hd : job.document.hasDistinctNames) :
    Meets (job.Knows fun _ => False) job.rootSequence (fun _ => job.Ends) job.IsFounded := by
  unfold rootSequence
  refine meets_lift (fun top htop => ?_) fun e h => isFounded_of_resolve .root h
  have hp := Reached.root.resolve htop
  have hnone := noReference_of_resolve htop
  refine meets_lift (fun shape hshape => ?_) fun e h => isFounded_of_ofPlace hp hnone h
  cases shape with
  | array =>
    have hs : HasShape job.document top .array := ⟨hnone, hshape⟩
    have hmodel (object : Place) (hobject : Elements.object? job.document top = .ok (some object)) :
        Meets (job.Knows fun _ => False) (job.modelType object)
          (fun _ => job.Knows fun k => False ∨ k = object.pointer) job.IsFounded := by
      have hcontains : Contains job.document top object := .element hs hobject
      obtain ⟨hreached, hobjectShape⟩ := hp.contains hcontains
      exact meets_modelTypeIn hd htop _ [] hreached hobjectShape (.single hcontains) (fits_start _)
        fun k hk => absurd hk List.not_mem_nil
    exact (meets_sequenceType hd hp hs hmodel).mono (fun _ h => h) fun _ _ h =>
      .array htop hs (h.mono fun k hk => Or.inr hk)
  | _ => exact meets_throw (isFounded_of_ne nofun)

/-- What is known at the end of a whole compilation. -/
theorem Step.Meets.run {α : Type} {step : Step α} {post : Progress → Prop} {fail : SchemaError → Prop}
    (h : Meets (job.Knows fun _ => False) step (fun _ => post) fail) :
    (∀ a, (Compilation.run step).1 = .ok a → ∃ done, post done ∧ (Compilation.run step).2 = done.handed) ∧
      ∀ e, (Compilation.run step).1 = .error e → fail e := by
  refine ⟨fun a ha => ?_, fun e he => ?_⟩
  · have hrun : step.runFrom ⟨[], [], []⟩ = (.ok a, (step.runFrom ⟨[], [], []⟩).2) := Prod.ext ha rfl
    exact ⟨_, h.ok (knows_start job) hrun, rfl⟩
  · have hrun : step.runFrom ⟨[], [], []⟩ = (.error e, (step.runFrom ⟨[], [], []⟩).2) := Prod.ext he rfl
    exact h.error (knows_start job) hrun

end Compilation
end SchemaBound
