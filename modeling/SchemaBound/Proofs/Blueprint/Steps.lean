import Mathlib.Data.List.Forall2
import SchemaBound.Blueprint.Compilation

/-! What a step of a compilation ensures when it succeeds, put together from what its parts ensure,
and the part that makes one field. -/
namespace SchemaBound.Compilation

/-- Runs a step from some progress. -/
def Step.runFrom {α : Type} (step : Step α) (done : Progress) : Except SchemaError α × Progress :=
  (ExceptT.run step).run done

/-- Where the progress satisfies `inv` and the step succeeds, the progress still satisfies it and the result
satisfies `post`. -/
def Step.Ensures {α : Type} (inv : Progress → Prop) (step : Step α) (post : α → Prop) : Prop :=
  ∀ done a after, inv done → step.runFrom done = (.ok a, after) → inv after ∧ post a

namespace Step

variable {α β : Type} {inv : Progress → Prop}

theorem runFrom_bind (step : Step α) (next : α → Step β) (done : Progress) :
    (step >>= next).runFrom done =
      match step.runFrom done with
      | (.ok a, after) => (next a).runFrom after
      | (.error e, after) => (.error e, after) := by
  unfold runFrom
  rw [ExceptT.run_bind, StateT.run_bind]
  rcases (ExceptT.run step).run done with ⟨x, after⟩
  cases x with
  | ok a => rfl
  | error e => rfl

theorem ensures_pure {post : α → Prop} {a : α} (h : post a) : Ensures inv (pure a) post := by
  intro done b after hinv hrun
  obtain ⟨hb, rfl⟩ := Prod.mk.inj hrun
  obtain rfl := Except.ok.inj hb
  exact ⟨hinv, h⟩

theorem ensures_throw {post : α → Prop} (e : SchemaError) : Ensures inv (throw e : Step α) post := by
  intro done b after hinv hrun
  cases (Prod.mk.inj hrun).1

/-- What is known of the first step's result may be used for the second. -/
theorem Ensures.bind {step : Step α} {next : α → Step β} {mid : α → Prop} {post : β → Prop}
    (h : Ensures inv step mid) (hnext : ∀ a, mid a → Ensures inv (next a) post) :
    Ensures inv (step >>= next) post := by
  intro done b after hinv hrun
  rw [runFrom_bind] at hrun
  rcases hstep : step.runFrom done with ⟨x, between⟩
  rw [hstep] at hrun
  cases x with
  | error e => cases (Prod.mk.inj hrun).1
  | ok a =>
    obtain ⟨hbetween, ha⟩ := h done a between hinv hstep
    exact hnext a ha between b after hbetween hrun

theorem Ensures.mono {step : Step α} {post post' : α → Prop} (h : Ensures inv step post)
    (himp : ∀ a, post a → post' a) : Ensures inv step post' := by
  intro done a after hinv hrun
  obtain ⟨hafter, ha⟩ := h done a after hinv hrun
  exact ⟨hafter, himp a ha⟩

theorem Ensures.map {step : Step α} {f : α → β} {post : β → Prop}
    (h : Ensures inv step fun a => post (f a)) : Ensures inv (f <$> step) post := by
  rw [map_eq_pure_bind]
  exact h.bind fun a ha => ensures_pure ha

/-- A result that needs no progress. -/
theorem ensures_lift {result : Except SchemaError α} {post : α → Prop}
    (h : ∀ a, result = .ok a → post a) : Ensures inv (liftM result : Step α) post := by
  intro done a after hinv hrun
  obtain ⟨ha, rfl⟩ := Prod.mk.inj hrun
  exact ⟨hinv, h a ha⟩

/-- Looking at the progress. -/
theorem ensures_get : Ensures inv (get : Step Progress) inv := by
  intro done a after hinv hrun
  obtain ⟨ha, rfl⟩ := Prod.mk.inj hrun
  obtain rfl := Except.ok.inj ha
  exact ⟨hinv, hinv⟩

theorem ensures_modify {f : Progress → Progress} (h : ∀ done, inv done → inv (f done)) :
    Ensures inv (modify f : Step Unit) fun _ => True := by
  intro done a after hinv hrun
  obtain ⟨_, rfl⟩ := Prod.mk.inj hrun
  exact ⟨h done hinv, trivial⟩

/-- Steps for the members of a list, each with a result that suits its member. -/
theorem ensures_mapM (post : α → β → Prop) {f : α → Step β} (list : List α)
    (h : ∀ a ∈ list, Ensures inv (f a) (post a)) :
    Ensures inv (list.mapM f) (List.Forall₂ post list) := by
  induction list with
  | nil =>
    rw [List.mapM_nil]
    exact ensures_pure List.Forall₂.nil
  | cons a rest ih =>
    rw [List.mapM_cons]
    refine (h a List.mem_cons_self).bind fun b hb => ?_
    refine (ih fun a ha => h a (List.mem_cons_of_mem _ ha)).bind fun bs hbs => ?_
    exact ensures_pure (List.Forall₂.cons hb hbs)

end Step

/-- The place of a rule for a field. -/
def rulePlace (place : Place) (rule : String × Json) : Place :=
  ⟨place.pointer ++ "/properties/" ++ Pointer.escape rule.1, rule.2⟩

/-- The field that a rule declares, with `compile` for the objects that the rule holds. -/
def fieldBy (job : Compilation) (compile : Place → Step ModelType) (place : Place) (rule : String × Json) :
    Step Field := do
  let target ← Place.resolve job.document (rulePlace place rule)
  let kind ← match ← Shape.ofPlace job.document target with
    | .object => FieldKind.object <$> compile target
    | .array => FieldKind.array <$> job.sequenceType compile target
    | .union => pure .union
    | .scalar => pure .scalar
  return ⟨rule.1, target.pointer, kind⟩

end SchemaBound.Compilation
