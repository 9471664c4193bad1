import SchemaBound.Proofs.Success

/-! Where the failure of a computation comes from. -/
namespace SchemaBound.Failure

variable {α β ε : Type}

theorem bind_eq_error {x : Except ε α} {f : α → Except ε β} {e : ε} :
    x >>= f = .error e ↔ x = .error e ∨ ∃ a, x = .ok a ∧ f a = .error e := by
  cases x <;> simp [bind, Except.bind]

theorem pure_ne_error {a : α} {e : ε} : (pure a : Except ε α) ≠ .error e := by
  simp [pure, Except.pure]

theorem map_eq_error {x : Except ε α} {f : α → β} {e : ε} : x.map f = .error e ↔ x = .error e := by
  cases x <;> simp [Except.map]

theorem mapError_eq_error {ε' : Type} {x : Except ε α} {f : ε → ε'} {e : ε'} :
    x.mapError f = .error e ↔ ∃ cause, x = .error cause ∧ f cause = e := by
  cases x <;> simp [Except.mapError]

/-- Some member of the list fails. -/
theorem exists_of_mapM_eq_error {f : α → Except ε β} {list : List α} {e : ε}
    (h : list.mapM f = .error e) : ∃ a ∈ list, f a = .error e := by
  induction list with
  | nil =>
    rw [List.mapM_nil] at h
    exact absurd h pure_ne_error
  | cons a rest ih =>
    rw [List.mapM_cons] at h
    rcases bind_eq_error.mp h with ha | ⟨b, _, h⟩
    · exact ⟨a, List.mem_cons_self, ha⟩
    · rcases bind_eq_error.mp h with hrest | ⟨bs, _, h⟩
      · obtain ⟨a', ha', hfail⟩ := ih hrest
        exact ⟨a', List.mem_cons_of_mem _ ha', hfail⟩
      · exact absurd h pure_ne_error

/-- Some step of a fold fails. -/
theorem exists_of_foldlM_eq_error {f : β → α → Except ε β} {list : List α} {first : β} {e : ε}
    (h : list.foldlM f first = .error e) : ∃ a ∈ list, ∃ b, f b a = .error e := by
  induction list generalizing first with
  | nil =>
    rw [List.foldlM_nil] at h
    exact absurd h pure_ne_error
  | cons a rest ih =>
    rw [List.foldlM_cons] at h
    rcases bind_eq_error.mp h with ha | ⟨next, _, h⟩
    · exact ⟨a, List.mem_cons_self, first, ha⟩
    · obtain ⟨a', ha', hfail⟩ := ih h
      exact ⟨a', List.mem_cons_of_mem _ ha', hfail⟩

/-- Some round of a loop over a list fails. -/
theorem exists_of_forIn_eq_error {round : α → Except ε (ForInStep Unit)} {list : List α} {e : ε}
    (h : (forIn list () fun a _ => round a) = .error e) : ∃ a ∈ list, round a = .error e := by
  induction list with
  | nil =>
    rw [List.forIn_nil] at h
    exact absurd h pure_ne_error
  | cons a rest ih =>
    rw [List.forIn_cons] at h
    rcases bind_eq_error.mp h with ha | ⟨step, _, h⟩
    · exact ⟨a, List.mem_cons_self, ha⟩
    · cases step with
      | done => exact absurd h pure_ne_error
      | yield =>
        obtain ⟨a', ha', hfail⟩ := ih h
        exact ⟨a', List.mem_cons_of_mem _ ha', hfail⟩

end SchemaBound.Failure
