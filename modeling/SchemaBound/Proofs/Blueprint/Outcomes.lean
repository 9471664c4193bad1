import SchemaBound.Proofs.Blueprint.Steps

/-! What a step of a compilation leads to from some progress, in success and in failure. -/
namespace SchemaBound.Compilation.Step

variable {α β : Type} {pre pre' : Progress → Prop} {fail : SchemaError → Prop}

/-- From progress that satisfies `pre`, a success satisfies `post`, and a failure satisfies `fail`. -/
def Meets (pre : Progress → Prop) (step : Step α) (post : α → Progress → Prop) (fail : SchemaError → Prop) :
    Prop :=
  ∀ done, pre done →
    match step.runFrom done with
    | (.ok a, after) => post a after
    | (.error e, _) => fail e

theorem Meets.ok {step : Step α} {post : α → Progress → Prop} (h : Meets pre step post fail)
    {done after : Progress} {a : α} (hpre : pre done) (hrun : step.runFrom done = (.ok a, after)) :
    post a after := by
  have hmeets := h done hpre
  rw [hrun] at hmeets
  exact hmeets

theorem Meets.error {step : Step α} {post : α → Progress → Prop} (h : Meets pre step post fail)
    {done after : Progress} {e : SchemaError} (hpre : pre done) (hrun : step.runFrom done = (.error e, after)) :
    fail e := by
  have hmeets := h done hpre
  rw [hrun] at hmeets
  exact hmeets

theorem meets_pure {post : α → Progress → Prop} {a : α} (h : ∀ done, pre done → post a done) :
    Meets pre (pure a) post fail := fun done hpre => h done hpre

theorem meets_throw {post : α → Progress → Prop} {e : SchemaError} (h : fail e) :
    Meets pre (throw e : Step α) post fail := fun _ _ => h

theorem meets_get : Meets pre (get : Step Progress) (fun found done => found = done ∧ pre done) fail :=
  fun _ hpre => ⟨rfl, hpre⟩

theorem meets_modify {f : Progress → Progress} {post : Progress → Prop}
    (h : ∀ done, pre done → post (f done)) :
    Meets pre (modify f : Step Unit) (fun _ => post) fail := fun done hpre => h done hpre

theorem Meets.bind {step : Step α} {next : α → Step β} {mid : α → Progress → Prop}
    {post : β → Progress → Prop} (h : Meets pre step mid fail)
    (hnext : ∀ a, Meets (mid a) (next a) post fail) : Meets pre (step >>= next) post fail := by
  intro done hpre
  rw [runFrom_bind]
  rcases hstep : step.runFrom done with ⟨x, between⟩
  cases x with
  | error e => exact h.error hpre hstep
  | ok a => exact hnext a between (h.ok hpre hstep)

/-- A result that needs no progress, and what is done with it. -/
theorem meets_lift {result : Except SchemaError α} {next : α → Step β} {post : β → Progress → Prop}
    (hok : ∀ a, result = .ok a → Meets pre (next a) post fail) (herror : ∀ e, result = .error e → fail e) :
    Meets pre ((liftM result : Step α) >>= next) post fail := by
  intro done hpre
  rw [runFrom_bind]
  cases result with
  | ok a => exact hok a rfl done hpre
  | error e => exact herror e rfl

theorem Meets.mono {step : Step α} {post post' : α → Progress → Prop} (h : Meets pre step post fail)
    (hpre : ∀ done, pre' done → pre done) (hpost : ∀ a done, post a done → post' a done) :
    Meets pre' step post' fail := by
  intro done hdone
  rcases hstep : step.runFrom done with ⟨x, after⟩
  cases x with
  | error e => exact h.error (hpre done hdone) hstep
  | ok a => exact hpost a after (h.ok (hpre done hdone) hstep)

theorem Meets.map_result {step : Step α} {f : α → β} {post : β → Progress → Prop}
    (h : Meets pre step (fun a => post (f a)) fail) : Meets pre (f <$> step) post fail := by
  rw [map_eq_pure_bind]
  exact h.bind fun a => meets_pure fun _ hdone => hdone

theorem Meets.map {step : Step α} {f : α → β} {post : Progress → Prop}
    (h : Meets pre step (fun _ => post) fail) : Meets pre (f <$> step) (fun _ => post) fail :=
  Meets.map_result h

/-- Facts about the progress that grow along a list: each member adds its own to those known before. -/
theorem meets_mapM {κ : Type} (inv : (κ → Prop) → Progress → Prop) (news : α → κ → Prop) {f : α → Step β}
    (list : List α)
    (h : ∀ a ∈ list, ∀ known, Meets (inv known) (f a) (fun _ => inv fun k => known k ∨ news a k) fail)
    (known : κ → Prop) :
    Meets (inv known) (list.mapM f) (fun _ => inv fun k => known k ∨ ∃ a ∈ list, news a k) fail := by
  induction list generalizing known with
  | nil =>
    have hsame : (fun k => known k ∨ ∃ a ∈ ([] : List α), news a k) = known := by
      funext k
      simp
    rw [List.mapM_nil, hsame]
    exact meets_pure fun _ hdone => hdone
  | cons a rest ih =>
    have hsame : (fun k => (known k ∨ news a k) ∨ ∃ a' ∈ rest, news a' k) =
        fun k => known k ∨ ∃ a' ∈ a :: rest, news a' k := by
      funext k
      simp [or_assoc]
    rw [List.mapM_cons]
    refine (h a List.mem_cons_self known).bind fun b => ?_
    refine (ih (fun a' ha' => h a' (List.mem_cons_of_mem _ ha')) _).bind fun bs => ?_
    rw [hsame]
    exact meets_pure fun _ hdone => hdone

end SchemaBound.Compilation.Step
