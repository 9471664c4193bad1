import Mathlib.Data.List.Forall2

/-! What the success of a computation that may fail says about its parts. -/
namespace SchemaBound.Success

variable {α β ε ε' : Type}

theorem bind_eq_ok {x : Except ε α} {f : α → Except ε β} {b : β} :
    x >>= f = .ok b ↔ ∃ a, x = .ok a ∧ f a = .ok b := by
  cases x <;> simp [bind, Except.bind]

theorem pure_eq_ok {a b : α} : (pure a : Except ε α) = .ok b ↔ a = b := by
  simp [pure, Except.pure]

theorem map_eq_ok {x : Except ε α} {f : α → β} {b : β} : x.map f = .ok b ↔ ∃ a, x = .ok a ∧ f a = b := by
  cases x <;> simp [Except.map]

theorem toOption_eq_some {x : Except ε α} {a : α} : x.toOption = some a ↔ x = .ok a := by
  cases x <;> simp [Except.toOption]

theorem mapError_eq_ok {x : Except ε α} {f : ε → ε'} {a : α} : x.mapError f = .ok a ↔ x = .ok a := by
  cases x <;> simp [Except.mapError]

theorem mapM_singleton_eq_ok {f : α → Except ε β} {a : α} {results : List β} :
    [a].mapM f = .ok results ↔ ∃ b, f a = .ok b ∧ results = [b] := by
  rw [List.mapM_cons, List.mapM_nil]
  simp only [bind_eq_ok, pure_eq_ok]
  constructor
  · rintro ⟨b, hb, _, rfl, rfl⟩
    exact ⟨b, hb, rfl⟩
  · rintro ⟨b, hb, rfl⟩
    exact ⟨b, hb, [], rfl, rfl⟩

/-- Every member of the list has its result. -/
theorem forall₂_of_mapM_eq_ok {f : α → Except ε β} {list : List α} {results : List β}
    (h : list.mapM f = .ok results) : List.Forall₂ (fun a b => f a = .ok b) list results := by
  induction list generalizing results with
  | nil =>
    rw [List.mapM_nil, pure_eq_ok] at h
    subst h
    exact .nil
  | cons a rest ih =>
    simp only [List.mapM_cons, bind_eq_ok, pure_eq_ok] at h
    obtain ⟨b, hb, bs, hbs, rfl⟩ := h
    exact .cons hb (ih hbs)

theorem exists_of_mem_results {f : α → Except ε β} {list : List α} {results : List β}
    (h : list.mapM f = .ok results) {b : β} (hb : b ∈ results) : ∃ a ∈ list, f a = .ok b := by
  have hall := forall₂_of_mapM_eq_ok h
  clear h
  induction hall with
  | nil => cases hb
  | @cons a b' _ _ hab _ ih =>
    rcases List.mem_cons.mp hb with rfl | hb
    · exact ⟨a, List.mem_cons_self, hab⟩
    · obtain ⟨a', ha', hab'⟩ := ih hb
      exact ⟨a', List.mem_cons_of_mem _ ha', hab'⟩

theorem exists_result_of_mem {f : α → Except ε β} {list : List α} {results : List β}
    (h : list.mapM f = .ok results) {a : α} (ha : a ∈ list) : ∃ b ∈ results, f a = .ok b := by
  have hall := forall₂_of_mapM_eq_ok h
  clear h
  induction hall with
  | nil => cases ha
  | @cons a' b _ _ hab _ ih =>
    rcases List.mem_cons.mp ha with rfl | ha
    · exact ⟨b, List.mem_cons_self, hab⟩
    · obtain ⟨b', hb', hab'⟩ := ih ha
      exact ⟨b', List.mem_cons_of_mem _ hb', hab'⟩

/-- Members with their results make a list with its results. -/
theorem mapM_eq_ok_of_forall₂ {f : α → Except ε β} {list : List α} {results : List β}
    (h : List.Forall₂ (fun a b => f a = .ok b) list results) : list.mapM f = .ok results := by
  induction h with
  | nil => rfl
  | cons hb _ ih =>
    simp only [List.mapM_cons, bind_eq_ok, pure_eq_ok]
    exact ⟨_, hb, _, ih, rfl⟩

/-- Every member has a result exactly if there is a list of results. -/
theorem exists_forall₂_iff {R : α → β → Prop} {list : List α} :
    (∃ results, List.Forall₂ R list results) ↔ ∀ a ∈ list, ∃ b, R a b := by
  induction list with
  | nil => simp
  | cons a rest ih =>
    rw [List.forall_mem_cons, ← ih]
    constructor
    · rintro ⟨_, _ | ⟨hb, hrest⟩⟩
      exact ⟨⟨_, hb⟩, ⟨_, hrest⟩⟩
    · rintro ⟨⟨b, hb⟩, ⟨results, hrest⟩⟩
      exact ⟨b :: results, .cons hb hrest⟩

/-- Members and their results that come to the same, one by one. -/
theorem map_eq_map_of_forall₂ {γ : Type} {f : α → γ} {g : β → γ} {list : List α} {results : List β}
    (h : List.Forall₂ (fun a b => g b = f a) list results) : results.map g = list.map f := by
  induction h with
  | nil => rfl
  | cons hb _ ih => rw [List.map_cons, List.map_cons, hb, ih]

theorem mapM_congr {m : Type → Type} [Monad m] [LawfulMonad m] {f g : α → m β} {list : List α}
    (h : ∀ a ∈ list, f a = g a) : list.mapM f = list.mapM g := by
  induction list with
  | nil => rw [List.mapM_nil, List.mapM_nil]
  | cons a rest ih =>
    have hrest := ih fun a' ha' => h a' (List.mem_cons_of_mem _ ha')
    rw [List.mapM_cons, List.mapM_cons, h a List.mem_cons_self, hrest]

/-- What every step of a fold keeps holds at its end. -/
theorem foldlM_keeps (inv : β → Prop) {f : β → α → Except ε β} {list : List α}
    (hstep : ∀ a ∈ list, ∀ b b', inv b → f b a = .ok b' → inv b') {first last : β} (hfirst : inv first)
    (h : list.foldlM f first = .ok last) : inv last := by
  induction list generalizing first with
  | nil =>
    rw [List.foldlM_nil, pure_eq_ok] at h
    exact h ▸ hfirst
  | cons a rest ih =>
    rw [List.foldlM_cons, bind_eq_ok] at h
    obtain ⟨next, hnext, h⟩ := h
    have hinv : inv next := hstep a List.mem_cons_self first next hfirst hnext
    exact ih (fun a' ha' => hstep a' (List.mem_cons_of_mem _ ha')) hinv h

/-- What the step for a member brings about, and later steps keep, holds at the end of a fold. -/
theorem foldlM_reaches (post : α → β → Prop) {f : β → α → Except ε β}
    (hstep : ∀ a b b', f b a = .ok b' → post a b')
    (hkeeps : ∀ a other b b', f b other = .ok b' → post a b → post a b') {list : List α} {first last : β}
    (h : list.foldlM f first = .ok last) : ∀ a ∈ list, post a last := by
  induction list generalizing first with
  | nil => exact fun _ ha => nomatch ha
  | cons head rest ih =>
    rw [List.foldlM_cons, bind_eq_ok] at h
    obtain ⟨next, hnext, h⟩ := h
    refine List.forall_mem_cons.mpr ⟨?_, ih h⟩
    have hkept : ∀ other ∈ rest, ∀ b b', post head b → f b other = .ok b' → post head b' :=
      fun other _ b b' hb hb' => hkeeps head other b b' hb' hb
    exact foldlM_keeps (post head) hkept (hstep head first next hnext) h

/-- There is a result and it passes the test. -/
def yields (x : Except ε α) (test : α → Bool) : Bool :=
  match x with
  | .ok a => test a
  | .error _ => false

theorem exists_of_yields {x : Except ε α} {test : α → Bool} (h : yields x test) :
    ∃ a, x = .ok a ∧ test a := by
  cases x with
  | ok a => exact ⟨a, rfl, h⟩
  | error e => cases h

end SchemaBound.Success
