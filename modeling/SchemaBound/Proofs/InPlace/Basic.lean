import SchemaBound.Program.Run

/-! Operations that change an instance in place. What they changed before they failed stays changed, so that
undoing it is something to be proved. -/
namespace SchemaBound

/-- An operation on an instance in place, with the saved instances at hand. Its failure undoes nothing. -/
abbrev InPlace (σ α : Type) := ExceptT Error (StateT σ (StateM Saved)) α

namespace InPlace

variable {σ τ α β : Type}

/-- What the operation yields from some instance on: its result, the instance after it, and what is saved. -/
def runOn (op : InPlace σ α) (before : σ) (saved : Saved) : (Except Error α × σ) × Saved :=
  ((ExceptT.run op).run before).run saved

/-- Nothing but a success changes the instance. -/
def IsAtomic (op : InPlace σ α) : Prop :=
  ∀ before saved e after saved', op.runOn before saved = ((.error e, after), saved') → after = before

/-- An operation whose answer is a failure that it caught has not changed the instance. -/
def LeavesCaught (op : InPlace σ Answer) : Prop :=
  ∀ before saved e after saved', op.runOn before saved = ((.ok (.caught e), after), saved') → after = before

/-- Runs an operation on a copy of some other instance and hands the copy back. If the operation fails, the
copy is dropped and the error seen from outside. -/
def onCopy (nest : Error → Error) (op : InPlace τ α) (copy : τ) : InPlace σ (α × τ) :=
  fun before saved =>
    match op.runOn copy saved with
    | ((.ok a, changed), saved) => ((.ok (a, changed), before), saved)
    | ((.error e, _), saved) => ((.error (nest e), before), saved)

theorem runOn_bind (op : InPlace σ α) (next : α → InPlace σ β) (before : σ) (saved : Saved) :
    (op >>= next).runOn before saved =
      match op.runOn before saved with
      | ((.ok a, after), saved) => (next a).runOn after saved
      | ((.error e, after), saved) => ((.error e, after), saved) := by
  unfold runOn
  rw [ExceptT.run_bind, StateT.run_bind, StateT.run_bind]
  change (match ((ExceptT.run op).run before).run saved with | ((x, after), saved) => _) = _
  rcases ((ExceptT.run op).run before).run saved with ⟨⟨x, after⟩, saved'⟩
  cases x with
  | ok a => rfl
  | error e => rfl

@[simp] theorem runOn_pure (a : α) (before : σ) (saved : Saved) :
    (pure a : InPlace σ α).runOn before saved = ((.ok a, before), saved) := rfl

@[simp] theorem runOn_throw (e : Error) (before : σ) (saved : Saved) :
    (throw e : InPlace σ α).runOn before saved = ((.error e, before), saved) := rfl

@[simp] theorem runOn_get (before : σ) (saved : Saved) :
    (get : InPlace σ σ).runOn before saved = ((.ok before, before), saved) := rfl

@[simp] theorem runOn_set (after before : σ) (saved : Saved) :
    (set after : InPlace σ Unit).runOn before saved = ((.ok (), after), saved) := rfl

@[simp] theorem runOn_getSaved (before : σ) (saved : Saved) :
    (getThe Saved : InPlace σ Saved).runOn before saved = ((.ok saved, before), saved) := rfl

@[simp] theorem runOn_modifySaved (f : Saved → Saved) (before : σ) (saved : Saved) :
    (modifyThe Saved f : InPlace σ Unit).runOn before saved = ((.ok (), before), f saved) := rfl

@[simp] theorem runOn_lift (result : Except Error α) (before : σ) (saved : Saved) :
    (liftM result : InPlace σ α).runOn before saved = ((result, before), saved) := by
  cases result <;> rfl

/-- A handler starts from the instance that the failure left. -/
theorem runOn_tryCatch (op : InPlace σ α) (handle : Error → InPlace σ α) (before : σ) (saved : Saved) :
    (tryCatch op handle).runOn before saved =
      match op.runOn before saved with
      | ((.ok a, after), saved) => ((.ok a, after), saved)
      | ((.error e, after), saved) => (handle e).runOn after saved := by
  unfold runOn
  rw [ExceptT.run_tryCatch, StateT.run_bind, StateT.run_bind]
  change (match ((ExceptT.run op).run before).run saved with | ((x, after), saved) => _) = _
  rcases ((ExceptT.run op).run before).run saved with ⟨⟨x, after⟩, saved'⟩
  cases x with
  | ok a => rfl
  | error e => rfl

theorem runOn_onCopy (nest : Error → Error) (op : InPlace τ α) (copy : τ) (before : σ) (saved : Saved) :
    (onCopy nest op copy).runOn before saved =
      match op.runOn copy saved with
      | ((.ok a, changed), saved) => ((.ok (a, changed), before), saved)
      | ((.error e, _), saved) => ((.error (nest e), before), saved) := rfl

end InPlace
end SchemaBound
