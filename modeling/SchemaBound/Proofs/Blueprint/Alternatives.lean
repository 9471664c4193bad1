import Mathlib.Data.List.Induction
import Mathlib.Data.Set.Subsingleton
import SchemaBound.Proofs.Blueprint.Expansion

/-! What the elements of an array may be, and the choice among them: it is made by the set of the leaves that the
rules for elements expand to, however the rules are ordered, grouped, repeated or referred to. -/
namespace SchemaBound.Elements
open Relation Place

variable {document : Json}

/-- The places stand for the leaves: for what each resolves to, or for what its alternatives stand for. -/
inductive ExpandsTo (document : Json) : List Place → List Place → Prop
  | nil : ExpandsTo document [] []
  | leaf {place found : Place} {rest leaves : List Place} : place.resolve document = .ok found →
      alternatives? found.node = none → ExpandsTo document rest leaves →
      ExpandsTo document (place :: rest) (found :: leaves)
  | union {place found : Place} {keyword : String} {items : List Json} {rest leaves : List Place} :
      place.resolve document = .ok found → alternatives? found.node = some (keyword, items) →
      ExpandsTo document (found.entries keyword items ++ rest) leaves → ExpandsTo document (place :: rest) leaves

namespace ExpandsTo

variable {places more leaves : List Place} {place : Place}

theorem append {others : List Place} (h : ExpandsTo document places leaves) (hmore : ExpandsTo document more others) :
    ExpandsTo document (places ++ more) (leaves ++ others) := by
  induction h with
  | nil => exact hmore
  | leaf hresolve halt _ ih => exact .leaf hresolve halt ih
  | union hresolve halt _ ih =>
    rw [List.append_assoc] at ih
    exact .union hresolve halt ih

theorem exists_of_append (h : ExpandsTo document (places ++ more) leaves) :
    ∃ first second, leaves = first ++ second ∧ ExpandsTo document places first ∧ ExpandsTo document more second := by
  generalize hall : places ++ more = all at h
  induction h generalizing places with
  | nil =>
    obtain ⟨rfl, rfl⟩ := List.append_eq_nil_iff.mp hall
    exact ⟨[], [], rfl, .nil, .nil⟩
  | leaf hresolve halt hrest ih =>
    cases places with
    | nil =>
      rw [List.nil_append] at hall
      subst hall
      exact ⟨[], _, rfl, .nil, .leaf hresolve halt hrest⟩
    | cons place places =>
      obtain ⟨rfl, rfl⟩ := List.cons.inj hall
      obtain ⟨first, second, rfl, hfirst, hsecond⟩ := ih rfl
      exact ⟨_ :: first, second, rfl, .leaf hresolve halt hfirst, hsecond⟩
  | union hresolve halt hrest ih =>
    cases places with
    | nil =>
      rw [List.nil_append] at hall
      subst hall
      exact ⟨[], _, rfl, .nil, .union hresolve halt hrest⟩
    | cons place places =>
      obtain ⟨rfl, rfl⟩ := List.cons.inj hall
      obtain ⟨first, second, hleaves, hfirst, hsecond⟩ := ih (List.append_assoc _ _ _)
      exact ⟨first, second, hleaves, .union hresolve halt hfirst, hsecond⟩

theorem exists_of_cons (h : ExpandsTo document (place :: places) leaves) :
    ∃ first second, leaves = first ++ second ∧ ExpandsTo document [place] first ∧ ExpandsTo document places second := by
  rw [← List.singleton_append] at h
  exact h.exists_of_append

theorem cons {first second : List Place} (hfirst : ExpandsTo document [place] first)
    (hsecond : ExpandsTo document places second) : ExpandsTo document (place :: places) (first ++ second) := by
  rw [← List.singleton_append]
  exact hfirst.append hsecond

theorem unique {others : List Place} (h : ExpandsTo document places leaves) (h' : ExpandsTo document places others) :
    others = leaves := by
  induction h generalizing others with
  | nil =>
    cases h'
    rfl
  | leaf hresolve halt _ ih =>
    cases h' with
    | leaf hresolve' _ hrest =>
      obtain rfl := Except.ok.inj (hresolve.symm.trans hresolve')
      rw [ih hrest]
    | union hresolve' halt' _ =>
      obtain rfl := Except.ok.inj (hresolve.symm.trans hresolve')
      rw [halt] at halt'
      cases halt'
  | union hresolve halt _ ih =>
    cases h' with
    | leaf hresolve' halt' _ =>
      obtain rfl := Except.ok.inj (hresolve.symm.trans hresolve')
      rw [halt] at halt'
      cases halt'
    | union hresolve' halt' hrest =>
      obtain rfl := Except.ok.inj (hresolve.symm.trans hresolve')
      rw [halt] at halt'
      obtain ⟨rfl, rfl⟩ := Prod.mk.inj (Option.some.inj halt')
      exact ih hrest

theorem exists_of_mem (h : ExpandsTo document places leaves) (hplace : place ∈ places) :
    ∃ list, ExpandsTo document [place] list ∧ list ⊆ leaves := by
  induction places generalizing leaves with
  | nil => cases hplace
  | cons head rest ih =>
    obtain ⟨first, second, rfl, hfirst, hsecond⟩ := h.exists_of_cons
    rcases List.mem_cons.mp hplace with rfl | hplace
    · exact ⟨first, hfirst, List.subset_append_left _ _⟩
    · obtain ⟨list, hlist, hsubset⟩ := ih hsecond hplace
      exact ⟨list, hlist, List.Subset.trans hsubset (List.subset_append_right _ _)⟩

/-- Each place has leaves of its own. -/
theorem exists_forall₂ (h : ExpandsTo document places leaves) :
    ∃ lists, List.Forall₂ (fun place list => ExpandsTo document [place] list) places lists ∧
      lists.flatten = leaves := by
  induction places generalizing leaves with
  | nil =>
    cases h
    exact ⟨[], .nil, rfl⟩
  | cons place rest ih =>
    obtain ⟨first, second, rfl, hfirst, hsecond⟩ := h.exists_of_cons
    obtain ⟨lists, hlists, rfl⟩ := ih hsecond
    exact ⟨first :: lists, .cons hfirst hlists, rfl⟩

/-- The leaves have been come to, and are no references. -/
theorem reached (hp : ∀ place ∈ places, place.Reached document) (h : ExpandsTo document places leaves) :
    ∀ leaf ∈ leaves, leaf.Reached document ∧ leaf.node.get? "$ref" = none := by
  induction h with
  | nil => exact fun _ hleaf => nomatch hleaf
  | leaf hresolve _ _ ih =>
    obtain ⟨hplace, hrest⟩ := List.forall_mem_cons.mp hp
    exact List.forall_mem_cons.mpr ⟨⟨hplace.resolve hresolve, noReference_of_resolve hresolve⟩, ih hrest⟩
  | union hresolve halt _ ih =>
    obtain ⟨hplace, hrest⟩ := List.forall_mem_cons.mp hp
    refine ih (List.forall_mem_append.mpr ⟨fun entry hentry => ?_, hrest⟩)
    exact .alternative (hplace.resolve hresolve) ⟨noReference_of_resolve hresolve, _, _, halt, hentry⟩

/-- No way through alternatives from what a place stands for goes on for ever. -/
theorem acc (h : ExpandsTo document places leaves) : ∀ place ∈ places, ∃ found, place.resolve document = .ok found ∧
    Acc (fun inner outer => Nests document outer inner) found := by
  induction h with
  | nil => exact fun _ hplace => nomatch hplace
  | leaf hresolve halt _ ih =>
    refine List.forall_mem_cons.mpr ⟨⟨_, hresolve, .intro _ ?_⟩, ih⟩
    rintro inner ⟨entry, ⟨_, keyword, items, halt', _⟩, _⟩
    rw [halt] at halt'
    cases halt'
  | union hresolve halt _ ih =>
    obtain ⟨hentries, hrest⟩ := List.forall_mem_append.mp ih
    refine List.forall_mem_cons.mpr ⟨⟨_, hresolve, .intro _ ?_⟩, hrest⟩
    rintro inner ⟨entry, ⟨_, keyword, items, halt', hentry⟩, hinner⟩
    rw [halt] at halt'
    obtain ⟨rfl, rfl⟩ := Prod.mk.inj (Option.some.inj halt')
    obtain ⟨found, hfound, hacc⟩ := hentries entry hentry
    obtain rfl := Except.ok.inj (hinner.symm.trans hfound)
    exact hacc

end ExpandsTo

/-- From where no way goes on for ever, none leads back. -/
theorem not_recurs_of_acc (hd : document.hasDistinctNames) {first inner : Place} (hp : first.Reached document)
    (hacc : Acc (fun inner outer => Nests document outer inner) first)
    (hway : ReflTransGen (Nests document) first inner) : ¬ Recurs (Nests document) inner := by
  have hreached := hp.nestsStar hway
  have hinner : Acc (fun inner outer => Nests document outer inner) inner := by
    clear hreached
    induction hway with
    | refl => exact hacc
    | tail _ hstep ih => exact ih.inv hstep
  rintro ⟨again, hback, hpointer⟩
  obtain rfl := (hreached.nestsStar hback.to_reflTransGen).eq_of_pointer hd hreached hpointer
  clear hway hreached hpointer
  -- A way back to the place is a way back to the next place on it.
  induction hinner with
  | intro place _ ih =>
    obtain ⟨next, hstep, hrest⟩ := TransGen.head'_iff.mp hback
    exact ih next hstep (.tail' hrest hstep)

/-- The bound on how deep alternatives are followed is no bound where they end. -/
theorem ExpandsTo.endsWithin (hd : document.hasDistinctNames) {places leaves : List Place}
    (hp : ∀ place ∈ places, place.Reached document) (h : ExpandsTo document places leaves) :
    ∀ place ∈ places, EndsWithin document (nestingBound document) place := by
  intro place hplace
  obtain ⟨found, hfound, hacc⟩ := h.acc place hplace
  refine endsWithin_of_not_recurs (hp place hplace) fun first hfirst inner hway => ?_
  obtain rfl := Except.ok.inj (hfound.symm.trans hfirst)
  exact not_recurs_of_acc hd ((hp place hplace).resolve hfound) hacc hway

theorem expandIn_of_expandsTo {depth : Nat} {place : Place} {leaves : List Place}
    (hends : EndsWithin document depth place) (h : ExpandsTo document [place] leaves) :
    expandIn document depth place = .ok leaves := by
  induction depth generalizing place leaves with
  | zero => exact hends.elim
  | succ depth ih =>
    unfold expandIn
    rw [Success.bind_eq_ok]
    cases h with
    | leaf hresolve halt hrest =>
      cases hrest
      refine ⟨_, hresolve, ?_⟩
      rw [halt]
      rfl
    | @union _ found keyword items _ _ hresolve halt hentries =>
      refine ⟨found, hresolve, ?_⟩
      rw [List.append_nil] at hentries
      obtain ⟨lists, hlists, rfl⟩ := hentries.exists_forall₂
      have hnested : ∀ entry ∈ found.entries keyword items, EndsWithin document depth entry := fun entry hentry =>
        hends found entry hresolve ⟨noReference_of_resolve hresolve, keyword, items, halt, hentry⟩
      have hboth := (List.forall₂_and_left _ _).mpr ⟨hnested, hlists⟩
      have hresults := Success.mapM_eq_ok_of_forall₂ (hboth.imp fun entry list h => @ih entry list h.1 h.2)
      simp only [halt]
      exact Success.bind_eq_ok.mpr ⟨lists, hresults, rfl⟩

/-- What places stand for is found. -/
theorem exists_mapM_expand (hd : document.hasDistinctNames) {places leaves : List Place}
    (hp : ∀ place ∈ places, place.Reached document) (h : ExpandsTo document places leaves) :
    ∃ lists, places.mapM (expand document) = .ok lists ∧ lists.flatten = leaves := by
  obtain ⟨lists, hlists, hflatten⟩ := h.exists_forall₂
  have hboth := (List.forall₂_and_left _ _).mpr ⟨h.endsWithin hd hp, hlists⟩
  refine ⟨lists, Success.mapM_eq_ok_of_forall₂ (hboth.imp fun place list h => ?_), hflatten⟩
  exact expandIn_of_expandsTo h.1 h.2

/-- The leaf is an object. -/
def isObjectLeaf (document : Json) (leaf : Place) : Bool := Shape.ofPlace document leaf = .ok .object

/-- The leaf is neither an object nor nothing but null. -/
def isOtherLeaf (document : Json) (leaf : Place) : Bool := !isObjectLeaf document leaf && !isNullOnly leaf.node

/-- The pointers of the objects among the leaves, as references and alternatives lead to them. A node is one object
for one spelling of its pointer. -/
def objectPointers (document : Json) (leaves : List Place) : Set String :=
  {k | ∃ leaf ∈ leaves, isObjectLeaf document leaf ∧ leaf.pointer = k}

/-- How many leaves are neither objects nor nothing but null. -/
def othersCount (document : Json) (leaves : List Place) : Nat := leaves.countP (isOtherLeaf document)

section Survey

variable {leaves places : List Place} {leaf place : Place}

/-- Places each once, the first of those with one pointer. -/
def distinct (places : List Place) : List Place := places.foldl insertPlace []

theorem distinct_concat (places : List Place) (place : Place) :
    distinct (places ++ [place]) = insertPlace (distinct places) place := by
  rw [distinct, List.foldl_append]
  rfl

theorem pointers_insertPlace (places : List Place) (place : Place) :
    (insertPlace places place).map pointer = if place.pointer ∈ places.map pointer then places.map pointer
      else places.map pointer ++ [place.pointer] := by
  have hany : places.any (·.pointer = place.pointer) ↔ place.pointer ∈ places.map pointer := by simp
  unfold insertPlace
  simp only [hany]
  split
  · rfl
  · rw [List.map_append, List.map_singleton]

theorem mem_pointers_distinct {k : String} : k ∈ (distinct places).map pointer ↔ k ∈ places.map pointer := by
  induction places using List.reverseRecOn with
  | nil => rfl
  | append_singleton places place ih =>
    rw [distinct_concat, pointers_insertPlace, List.map_append, List.mem_append, ← ih]
    split
    · rename_i hmem
      rw [List.map_singleton, List.mem_singleton]
      exact ⟨.inl, fun h => h.elim id fun hk => hk ▸ hmem⟩
    · exact List.mem_append

theorem nodup_pointers_distinct (places : List Place) : ((distinct places).map pointer).Nodup := by
  induction places using List.reverseRecOn with
  | nil => exact List.nodup_nil
  | append_singleton places place ih =>
    rw [distinct_concat, pointers_insertPlace]
    split
    · exact ih
    · rename_i hnew
      exact List.nodup_append_comm.mp (List.nodup_cons.mpr ⟨hnew, ih⟩)

theorem mem_of_mem_distinct (h : place ∈ distinct places) : place ∈ places := by
  induction places using List.reverseRecOn with
  | nil => cases h
  | append_singleton places last ih =>
    rw [distinct_concat] at h
    rcases mem_insertPlace h with hold | rfl
    · exact List.mem_append_left _ (ih hold)
    · exact List.mem_append_right _ List.mem_cons_self

/-- Leaves that all have a shape are surveyed: the objects, each once, and whether there are others. -/
theorem survey_of_classified (h : ∀ leaf ∈ leaves, ∃ shape, Shape.ofPlace document leaf = .ok shape) :
    survey document leaves =
      .ok (distinct (leaves.filter (isObjectLeaf document)), leaves.any (isOtherLeaf document)) := by
  induction leaves using List.reverseRecOn with
  | nil => rfl
  | append_singleton leaves leaf ih =>
    obtain ⟨hinit, hlast⟩ := List.forall_mem_append.mp h
    obtain ⟨shape, hshape⟩ := hlast leaf List.mem_cons_self
    have hsurvey := ih hinit
    unfold survey at hsurvey ⊢
    rw [List.foldlM_append, hsurvey, List.filter_append, List.any_append, List.any_cons, List.any_nil, Bool.or_false]
    simp only [List.foldlM_cons, List.foldlM_nil, bind_pure]
    refine Success.bind_eq_ok.mpr ⟨_, rfl, Success.bind_eq_ok.mpr ⟨shape, hshape, ?_⟩⟩
    by_cases hobject : isObjectLeaf document leaf
    · obtain rfl := Except.ok.inj (hshape.symm.trans (of_decide_eq_true hobject))
      rw [List.filter_singleton, hobject, cond_true, distinct_concat, isOtherLeaf, hobject, Bool.not_true,
        Bool.false_and, Bool.or_false]
      rfl
    · have hshape' : shape ≠ .object := by
        rintro rfl
        exact hobject (decide_eq_true hshape)
      rw [Bool.not_eq_true] at hobject
      rw [List.filter_singleton, hobject, cond_false, List.append_nil, isOtherLeaf, hobject, Bool.not_false,
        Bool.true_and]
      cases shape with
      | object => exact absurd rfl hshape'
      | _ => rfl

theorem mem_objectPointers {k : String} :
    k ∈ objectPointers document leaves ↔ k ∈ (leaves.filter (isObjectLeaf document)).map pointer := by
  simp only [objectPointers, Set.mem_ofPred_eq, List.mem_map, List.mem_filter, and_assoc]

theorem othersCount_pos_iff : 0 < othersCount document leaves ↔ leaves.any (isOtherLeaf document) := by
  rw [othersCount, List.countP_pos_iff, List.any_eq_true]

end Survey

/-- What comes of the question for the object of an array, by the objects among the leaves and by whether there are
others. -/
inductive Chosen (document : Json) (array : Place) (leaves : List Place) : Except SchemaError (Option Place) → Prop
  | mixed : (objectPointers document leaves).Nonempty → 0 < othersCount document leaves →
      Chosen document array leaves (.error (.mixedArrayModels array.pointer))
  | multiple : (objectPointers document leaves).Nontrivial → ¬ 0 < othersCount document leaves →
      Chosen document array leaves (.error (.multipleArrayModels array.pointer))
  | one {object : Place} : object ∈ leaves → isObjectLeaf document object →
      objectPointers document leaves = {object.pointer} → ¬ 0 < othersCount document leaves →
      Chosen document array leaves (.ok (some object))
  | none : objectPointers document leaves = ∅ → Chosen document array leaves (.ok none)

section Answers

variable {array : Place} {leaves : List Place} {answer : Except SchemaError (Option Place)}

theorem Chosen.eq_mixed (h : Chosen document array leaves answer) (hobjects : (objectPointers document leaves).Nonempty)
    (hothers : 0 < othersCount document leaves) : answer = .error (.mixedArrayModels array.pointer) := by
  cases h with
  | mixed => rfl
  | multiple _ hnone | one _ _ _ hnone => exact absurd hothers hnone
  | none hempty => exact absurd hempty hobjects.ne_empty

theorem Chosen.eq_multiple (h : Chosen document array leaves answer)
    (hobjects : (objectPointers document leaves).Nontrivial) (hothers : ¬ 0 < othersCount document leaves) :
    answer = .error (.multipleArrayModels array.pointer) := by
  cases h with
  | mixed _ hsome => exact absurd hsome hothers
  | multiple => rfl
  | one _ _ hsingle _ => exact absurd hsingle hobjects.ne_singleton
  | none hempty => exact absurd hempty hobjects.nonempty.ne_empty

end Answers

section Choice

variable {array other : Place} {leaves others : List Place}

/-- The object of an array is chosen by the leaves that its rules for elements expand to. -/
theorem chosen_object? (hd : document.hasDistinctNames) (hp : array.Reached document)
    (hs : array.HasShape document .array) (h : ExpandsTo document (stated array) leaves)
    (hclassified : ∀ leaf ∈ leaves, ∃ shape, Shape.ofPlace document leaf = .ok shape) :
    Chosen document array leaves (object? document array) := by
  obtain ⟨lists, hlists, rfl⟩ := exists_mapM_expand hd (fun rule hrule => .element hp hs hrule) h
  have hsurvey := survey_of_classified hclassified
  have hmem {k : String} : k ∈ objectPointers document lists.flatten ↔
      k ∈ (distinct (lists.flatten.filter (isObjectLeaf document))).map pointer := by
    rw [mem_objectPointers, mem_pointers_distinct]
  have hnodup := nodup_pointers_distinct (lists.flatten.filter (isObjectLeaf document))
  have hleaf {object : Place} (hobject : object ∈ distinct (lists.flatten.filter (isObjectLeaf document))) :
      object ∈ lists.flatten ∧ isObjectLeaf document object := List.mem_filter.mp (mem_of_mem_distinct hobject)
  have hothers := @othersCount_pos_iff document lists.flatten
  unfold object?
  simp only [hlists, hsurvey, bind, Except.bind]
  generalize distinct (lists.flatten.filter (isObjectLeaf document)) = objects at hmem hnodup hleaf ⊢
  generalize lists.flatten.any (isOtherLeaf document) = mixed at hothers ⊢
  cases objects with
  | nil => exact .none (Set.eq_empty_of_forall_notMem fun k hk => absurd (hmem.mp hk) List.not_mem_nil)
  | cons object rest =>
    cases mixed with
    | true => exact .mixed ⟨object.pointer, hmem.mpr List.mem_cons_self⟩ (hothers.mpr rfl)
    | false =>
      have hnone : ¬ 0 < othersCount document lists.flatten := hothers.not.mpr (by decide)
      cases rest with
      | nil =>
        obtain ⟨hin, hshape⟩ := hleaf List.mem_cons_self
        refine .one hin hshape (Set.ext fun k => ?_) hnone
        rw [hmem, Set.mem_singleton_iff]
        exact List.mem_singleton
      | cons second rest =>
        have hsecond : second.pointer ∈ objectPointers document lists.flatten :=
          hmem.mpr (List.mem_cons_of_mem _ List.mem_cons_self)
        refine .multiple ⟨object.pointer, hmem.mpr List.mem_cons_self, second.pointer, hsecond, ?_⟩ hnone
        intro hsame
        exact (List.nodup_cons.mp hnodup).1 (hsame ▸ List.mem_cons_self)

theorem objectPointers_congr (h : ∀ leaf, leaf ∈ others ↔ leaf ∈ leaves) :
    objectPointers document others = objectPointers document leaves := by
  simp only [objectPointers, h]

theorem othersCount_pos_congr (h : ∀ leaf, leaf ∈ others ↔ leaf ∈ leaves) :
    0 < othersCount document others ↔ 0 < othersCount document leaves := by
  simp only [othersCount, List.countP_pos_iff, h]

/-- The two arrays are told the same, each at its own pointer. -/
inductive SameChoice (array other : Place) :
    Except SchemaError (Option Place) → Except SchemaError (Option Place) → Prop
  | mixed : SameChoice array other (.error (.mixedArrayModels array.pointer)) (.error (.mixedArrayModels other.pointer))
  | multiple : SameChoice array other (.error (.multipleArrayModels array.pointer))
      (.error (.multipleArrayModels other.pointer))
  | object (object? : Option Place) : SameChoice array other (.ok object?) (.ok object?)

/-- The set of the leaves is all that matters. -/
theorem Chosen.sameChoice (hd : document.hasDistinctNames) (hp : ∀ leaf ∈ leaves, leaf.Reached document)
    (hsame : ∀ leaf, leaf ∈ others ↔ leaf ∈ leaves) {answer answer' : Except SchemaError (Option Place)}
    (h : Chosen document array leaves answer) (h' : Chosen document other others answer') :
    SameChoice array other answer answer' := by
  have hobjects := @objectPointers_congr document _ _ hsame
  have hothers := @othersCount_pos_congr document _ _ hsame
  cases h with
  | mixed hnonempty hpos =>
    cases h' with
    | mixed => exact .mixed
    | multiple _ hzero | one _ _ _ hzero => exact absurd (hothers.mpr hpos) hzero
    | none hempty => exact absurd (hobjects ▸ hempty) hnonempty.ne_empty
  | multiple hnontrivial hzero =>
    cases h' with
    | mixed _ hpos => exact absurd (hothers.mp hpos) hzero
    | multiple => exact .multiple
    | one _ _ hsingle _ => exact absurd (hobjects ▸ hsingle) hnontrivial.ne_singleton
    | none hempty => exact absurd (hobjects ▸ hempty) hnontrivial.nonempty.ne_empty
  | @one object hin _ hsingle hzero =>
    cases h' with
    | mixed _ hpos => exact absurd (hothers.mp hpos) hzero
    | multiple hnontrivial _ => exact absurd (hobjects.trans hsingle) hnontrivial.ne_singleton
    | @one object' hin' _ hsingle' _ =>
      have hpointer : object.pointer = object'.pointer :=
        Set.singleton_injective (hsingle.symm.trans (hobjects.symm.trans hsingle'))
      obtain rfl := (hp _ hin).eq_of_pointer hd (hp _ ((hsame _).mp hin')) hpointer
      exact .object _
    | none hempty => exact absurd (hobjects.symm.trans hempty) (hsingle ▸ Set.singleton_ne_empty _)
  | none hempty =>
    cases h' with
    | mixed hnonempty _ => exact absurd (hobjects.trans hempty) hnonempty.ne_empty
    | multiple hnontrivial _ => exact absurd (hobjects.trans hempty) hnontrivial.nonempty.ne_empty
    | one _ _ hsingle _ => exact absurd (hobjects.trans hempty) (hsingle ▸ Set.singleton_ne_empty _)
    | none => exact .object _

end Choice

/-- Ways to write the same rules for elements: in another order, repeated, grouped in alternatives, and as references
to what they stand for. -/
inductive Rearranges (document : Json) : List Place → List Place → Prop
  | order {places others : List Place} : places.Perm others → Rearranges document places others
  | repeated {place : Place} {places : List Place} : place ∈ places → Rearranges document (place :: places) places
  | grouped {place found : Place} {keyword : String} {items : List Json} {places : List Place} :
      place.resolve document = .ok found → alternatives? found.node = some (keyword, items) →
      Rearranges document (place :: places) (found.entries keyword items ++ places)
  | referred {place same : Place} {places : List Place} : place.resolve document = same.resolve document →
      Rearranges document (place :: places) (same :: places)
  | symm {places others : List Place} : Rearranges document places others → Rearranges document others places
  | trans {places others more : List Place} : Rearranges document places others → Rearranges document others more →
      Rearranges document places more

section Rearranging

variable {places others leaves : List Place} {place same : Place}

/-- A node may be written where it stands or as a reference to it. -/
theorem Rearranges.of_refers (h : Refers document place same) (hnone : same.node.get? "$ref" = none) :
    Rearranges document (place :: places) (same :: places) := by
  obtain ⟨reference, href, htarget⟩ := h
  refine .referred ?_
  simp only [resolve, maxHops, resolveIn, href, htarget, hnone]

/-- Whatever the first places stand for, the others stand for a list of the same leaves. -/
def Covers (document : Json) (places others : List Place) : Prop :=
  ∀ leaves, ExpandsTo document places leaves →
    ∃ list, ExpandsTo document others list ∧ ∀ leaf, leaf ∈ list ↔ leaf ∈ leaves

theorem Covers.trans {more : List Place} (h : Covers document places others) (hmore : Covers document others more) :
    Covers document places more := by
  intro leaves hleaves
  obtain ⟨list, hlist, hsame⟩ := h leaves hleaves
  obtain ⟨last, hlast, hagain⟩ := hmore list hlist
  exact ⟨last, hlast, fun leaf => (hagain leaf).trans (hsame leaf)⟩

theorem covers_of_perm (h : places.Perm others) : Covers document places others := by
  induction h with
  | nil => exact fun leaves h => ⟨leaves, h, fun _ => .rfl⟩
  | cons place _ ih =>
    intro leaves hleaves
    obtain ⟨first, second, rfl, hfirst, hsecond⟩ := hleaves.exists_of_cons
    obtain ⟨list, hlist, hsame⟩ := ih second hsecond
    exact ⟨first ++ list, hfirst.cons hlist, fun leaf => by simp only [List.mem_append, hsame]⟩
  | swap place other rest =>
    intro leaves hleaves
    obtain ⟨first, tail, rfl, hfirst, htail⟩ := hleaves.exists_of_cons
    obtain ⟨second, third, rfl, hsecond, hthird⟩ := htail.exists_of_cons
    refine ⟨second ++ (first ++ third), hsecond.cons (hfirst.cons hthird), fun leaf => ?_⟩
    simp only [List.mem_append]
    exact or_left_comm
  | trans _ _ ih₁ ih₂ => exact ih₁.trans ih₂

theorem covers_repeated (hplace : place ∈ places) :
    Covers document (place :: places) places ∧ Covers document places (place :: places) := by
  constructor
  · intro leaves hleaves
    obtain ⟨first, second, rfl, hfirst, hsecond⟩ := hleaves.exists_of_cons
    obtain ⟨list, hlist, hsubset⟩ := hsecond.exists_of_mem hplace
    obtain rfl := hlist.unique hfirst
    exact ⟨second, hsecond, fun leaf => by simpa using @hsubset leaf⟩
  · intro leaves hleaves
    obtain ⟨list, hlist, hsubset⟩ := hleaves.exists_of_mem hplace
    exact ⟨list ++ leaves, hlist.cons hleaves, fun leaf => by simpa using @hsubset leaf⟩

theorem covers_referred (h : place.resolve document = same.resolve document) :
    Covers document (place :: places) (same :: places) := by
  intro leaves hleaves
  refine ⟨leaves, ?_, fun _ => .rfl⟩
  cases hleaves with
  | leaf hresolve halt hrest => exact .leaf (h ▸ hresolve) halt hrest
  | union hresolve halt hrest => exact .union (h ▸ hresolve) halt hrest

theorem covers_grouped {found : Place} {keyword : String} {items : List Json}
    (hresolve : place.resolve document = .ok found) (halt : alternatives? found.node = some (keyword, items)) :
    Covers document (place :: places) (found.entries keyword items ++ places) ∧
      Covers document (found.entries keyword items ++ places) (place :: places) := by
  constructor
  · intro leaves hleaves
    refine ⟨leaves, ?_, fun _ => .rfl⟩
    cases hleaves with
    | leaf hresolve' halt' _ =>
      obtain rfl := Except.ok.inj (hresolve.symm.trans hresolve')
      rw [halt] at halt'
      cases halt'
    | union hresolve' halt' hrest =>
      obtain rfl := Except.ok.inj (hresolve.symm.trans hresolve')
      rw [halt] at halt'
      obtain ⟨rfl, rfl⟩ := Prod.mk.inj (Option.some.inj halt')
      exact hrest
  · exact fun leaves hleaves => ⟨leaves, .union hresolve halt hleaves, fun _ => .rfl⟩

/-- Rules written in another way have the same leaves. -/
theorem Rearranges.covers (h : Rearranges document places others) :
    Covers document places others ∧ Covers document others places := by
  induction h with
  | order hperm => exact ⟨covers_of_perm hperm, covers_of_perm hperm.symm⟩
  | repeated hplace => exact covers_repeated hplace
  | grouped hresolve halt => exact covers_grouped hresolve halt
  | referred hsame => exact ⟨covers_referred hsame, covers_referred hsame.symm⟩
  | symm _ ih => exact ih.symm
  | trans _ _ ih₁ ih₂ => exact ⟨ih₁.1.trans ih₂.1, ih₂.2.trans ih₁.2⟩

end Rearranging

end SchemaBound.Elements
