import Mathlib.Logic.Function.Iterate
import SchemaBound.Proofs.Blueprint.Containment

/-! Expansions of the rules for elements: they end where no alternative leads back to itself, and only
references that lead back make them give up. -/
namespace SchemaBound.Elements
open Relation Place

variable {document : Json} {place rule : Place} {depth : Nat}

/-- One layer of an expansion, with `next` for the alternatives. -/
def expandBy (document : Json) (next : Place → Except SchemaError (List Place)) (place : Place) :
    Except SchemaError (List Place) := do
  let place ← place.resolve document
  match alternatives? place.node with
  | none => return [place]
  | some (keyword, items) => return (← (place.entries keyword items).mapM next).flatten

theorem expandIn_eq_iterate (document : Json) (depth : Nat) :
    expandIn document depth = (expandBy document)^[depth] fun place => .error (.cyclic place.pointer) := by
  induction depth with
  | zero => rfl
  | succ depth ih =>
    rw [Function.iterate_succ_apply', ← ih]
    rfl

/-- The alternatives of the place are nested less than `depth` deep. -/
def EndsWithin (document : Json) : Nat → Place → Prop
  | 0, _ => False
  | depth + 1, place =>
    ∀ found entry, place.resolve document = .ok found → Offers found entry → EndsWithin document depth entry

private theorem expandBy_congr {next next' : Place → Except SchemaError (List Place)}
    (h : ∀ found entry, place.resolve document = .ok found → Offers found entry → next entry = next' entry) :
    expandBy document next place = expandBy document next' place := by
  unfold expandBy
  cases hresolve : place.resolve document with
  | error e => rfl
  | ok found =>
    change (match alternatives? found.node with
        | none => pure [found]
        | some (keyword, items) => do
          let lists ← (found.entries keyword items).mapM next
          pure lists.flatten) =
      match alternatives? found.node with
        | none => pure [found]
        | some (keyword, items) => do
          let lists ← (found.entries keyword items).mapM next'
          pure lists.flatten
    split
    · rfl
    · rename_i keyword items halt
      have hentries := Success.mapM_congr fun entry hentry =>
        h found entry hresolve ⟨noReference_of_resolve hresolve, keyword, items, halt, hentry⟩
      rw [hentries]

/-- What is to happen below the layers that an expansion has does not matter. -/
theorem EndsWithin.iterate_eq (h : EndsWithin document depth place) {n m : Nat} (hn : depth ≤ n) (hm : depth ≤ m)
    (next next' : Place → Except SchemaError (List Place)) :
    (expandBy document)^[n] next place = (expandBy document)^[m] next' place := by
  induction depth generalizing place n m with
  | zero => exact h.elim
  | succ depth ih =>
    obtain ⟨n, rfl⟩ := Nat.exists_eq_succ_of_ne_zero (by omega : n ≠ 0)
    obtain ⟨m, rfl⟩ := Nat.exists_eq_succ_of_ne_zero (by omega : m ≠ 0)
    rw [Function.iterate_succ_apply', Function.iterate_succ_apply']
    refine expandBy_congr fun found entry hresolve hoffers => ?_
    have hentry : EndsWithin document depth entry := h found entry hresolve hoffers
    exact ih hentry (by omega) (by omega)

/-- An expansion that has layers to spare gives up only where references lead in a circle. -/
theorem EndsWithin.exists_of_cyclic (h : EndsWithin document depth place) (hp : place.Reached document) {k : String}
    (hfail : expandIn document depth place = .error (.cyclic k)) :
    ∃ entry k', Reached document entry ∧ entry.resolve document = .error (.cyclic k') := by
  induction depth generalizing place with
  | zero => exact h.elim
  | succ depth ih =>
    unfold expandIn at hfail
    rcases Failure.bind_eq_error.mp hfail with hresolve | ⟨found, hresolve, hfail⟩
    · exact ⟨place, k, hp, hresolve⟩
    · split at hfail
      · exact absurd hfail Failure.pure_ne_error
      · rename_i keyword items halt
        rcases Failure.bind_eq_error.mp hfail with hfail | ⟨_, _, hfail⟩
        · obtain ⟨entry, hentry, hfail⟩ := Failure.exists_of_mapM_eq_error hfail
          have hoffers : Offers found entry :=
            ⟨noReference_of_resolve hresolve, keyword, items, halt, hentry⟩
          exact ih (h found entry hresolve hoffers) (.alternative (hp.resolve hresolve) hoffers) hfail
        · exact absurd hfail Failure.pure_ne_error

/-- No alternative of a rule for elements leads back to itself. -/
def IsLoopFree (document : Json) : Prop :=
  ∀ array rule first inner, Reached document array → HasShape document array .array → rule ∈ stated array →
    rule.resolve document = .ok first → ReflTransGen (Nests document) first inner →
    ¬ Recurs (Nests document) inner

/-- The alternatives passed on the way from a place are distinct, so there are layers enough for the rest. -/
private theorem endsWithin_of_fits {first : Place} (hfirst : first.Reached document)
    (hends : ∀ inner, ReflTransGen (Nests document) first inner → ¬ Recurs (Nests document) inner)
    {passed : List String} (hfits : Fits document passed depth)
    (hway : ∀ found, place.resolve document = .ok found → ReflTransGen (Nests document) first found ∧
      ∀ k ∈ passed, ∃ before, before.pointer = k ∧ ReflTransGen (Nests document) first before ∧
        TransGen (Nests document) before found) :
    EndsWithin document depth place := by
  induction depth generalizing place passed with
  | zero => exact (not_fits_zero hfits).elim
  | succ depth ih =>
    intro found entry hresolve hoffers
    obtain ⟨hfound, hpassed⟩ := hway found hresolve
    have hnew : found.pointer ∉ passed := by
      intro hmem
      obtain ⟨before, hpointer, hbefore, hback⟩ := hpassed _ hmem
      exact hends before hbefore ⟨found, hback, hpointer.symm⟩
    refine ih (hfits.cons (hfirst.nestsStar hfound) hnew) fun inner hinner => ?_
    have hnests : Nests document found inner := ⟨entry, hoffers, hinner⟩
    refine ⟨hfound.tail hnests, fun k hk => ?_⟩
    rcases List.mem_cons.mp hk with rfl | hk
    · exact ⟨found, rfl, hfound, .single hnests⟩
    · obtain ⟨before, hpointer, hbefore, hback⟩ := hpassed k hk
      exact ⟨before, hpointer, hbefore, hback.tail hnests⟩

/-- There are layers enough for a rule from which no alternative leads back to itself. -/
theorem endsWithin_of_not_recurs (hrule : rule.Reached document)
    (hends : ∀ first, rule.resolve document = .ok first → ∀ inner, ReflTransGen (Nests document) first inner →
      ¬ Recurs (Nests document) inner) :
    EndsWithin document (nestingBound document) rule := by
  cases hresolve : rule.resolve document with
  | error e =>
    obtain ⟨bound, hbound⟩ := Nat.exists_eq_succ_of_ne_zero (Nat.mul_ne_zero document.size.succ_ne_zero
      document.size.succ_ne_zero)
    unfold nestingBound
    rw [hbound]
    intro found entry hfound
    rw [hresolve] at hfound
    cases hfound
  | ok first =>
    have hfirst := hrule.resolve hresolve
    refine endsWithin_of_fits hfirst (hends first hresolve) (fits_start document) fun found hfound => ?_
    obtain rfl := Except.ok.inj (hresolve.symm.trans hfound)
    exact ⟨.refl, fun k hk => absurd hk List.not_mem_nil⟩

theorem IsLoopFree.endsWithin (hend : IsLoopFree document) {array : Place} (ha : array.Reached document)
    (hs : array.HasShape document .array) (hrule : rule ∈ stated array) :
    EndsWithin document (nestingBound document) rule :=
  endsWithin_of_not_recurs (.element ha hs hrule) fun first hresolve inner =>
    hend array rule first inner ha hs hrule hresolve

/-- The question for the object of an array is given up only where references or alternatives lead in a
circle. -/
theorem exists_of_object_cyclic (hend : IsLoopFree document) {array : Place} (ha : array.Reached document)
    (hs : array.HasShape document .array) {k : String} (h : object? document array = .error (.cyclic k)) :
    (∃ entry k', Reached document entry ∧ entry.resolve document = .error (.cyclic k')) ∨
      ∃ found k', Reached document found ∧ found.node.get? "$ref" = none ∧
        Shape.ofPlace document found = .error (.cyclic k') := by
  unfold object? at h
  rcases Failure.bind_eq_error.mp h with h | ⟨lists, hlists, h⟩
  · obtain ⟨rule, hrule, h⟩ := Failure.exists_of_mapM_eq_error h
    exact Or.inl ((hend.endsWithin ha hs hrule).exists_of_cyclic (.element ha hs hrule) h)
  · rcases Failure.bind_eq_error.mp h with h | ⟨known, _, h⟩
    · obtain ⟨found, hfound, _, h⟩ := Failure.exists_of_foldlM_eq_error h
      obtain ⟨list, hlist, hmem⟩ := List.mem_flatten.mp hfound
      obtain ⟨rule, hrule, hexpand⟩ := Success.exists_of_mem_results hlists hlist
      obtain ⟨hreached, hnone⟩ := reached_of_expandIn (.element ha hs hrule) hexpand found hmem
      rcases Failure.bind_eq_error.mp h with h | ⟨shape, _, h⟩
      · exact Or.inr ⟨found, k, hreached, hnone, h⟩
      · split at h <;> exact absurd h Failure.pure_ne_error
    · split at h
      · exact absurd h Failure.pure_ne_error
      · cases h
      · exact absurd h Failure.pure_ne_error
      · cases h

end SchemaBound.Elements
