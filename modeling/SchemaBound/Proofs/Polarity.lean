import Mathlib.Logic.Basic

/-! How what one proposition depends on counts for it: the same way round, the other way round, or in both ways. -/
namespace SchemaBound

/-- How the values that one schema admits count for the values that another one admits. -/
inductive Polarity where
  | positive
  | negative
  | mixed
deriving DecidableEq

namespace Polarity

/-- What counts the other way round. -/
def flip : Polarity → Polarity
  | positive => negative
  | negative => positive
  | mixed => mixed

/-- How something counts for the whole that counts in the first way for a part which counts in the second. -/
def times : Polarity → Polarity → Polarity
  | positive, polarity => polarity
  | negative, polarity => polarity.flip
  | mixed, _ => mixed

@[simp]
theorem times_mixed (polarity : Polarity) : polarity.times mixed = mixed := by
  cases polarity <;> rfl

/-- The second holds where the first does, or the first where the second does, or both. -/
def Implies : Polarity → Prop → Prop → Prop
  | positive, p, q => p → q
  | negative, p, q => q → p
  | mixed, p, q => p ↔ q

variable {polarity : Polarity} {p p' q q' : Prop}

theorem implies_of_iff (polarity : Polarity) (h : p ↔ q) : polarity.Implies p q := by
  cases polarity with
  | positive => exact h.mp
  | negative => exact h.mpr
  | mixed => exact h

theorem implies_refl (polarity : Polarity) (p : Prop) : polarity.Implies p p := polarity.implies_of_iff Iff.rfl

theorem Implies.congr (h : polarity.Implies p q) (hp : p ↔ p') (hq : q ↔ q') : polarity.Implies p' q' := by
  rwa [← propext hp, ← propext hq]

theorem Implies.trans {r : Prop} (h : polarity.Implies p q) (h' : polarity.Implies q r) : polarity.Implies p r := by
  cases polarity with
  | positive => exact fun hp => h' (h hp)
  | negative => exact fun hr => h (h' hr)
  | mixed => exact Iff.trans h h'

theorem Implies.and (h : polarity.Implies p q) (h' : polarity.Implies p' q') : polarity.Implies (p ∧ p') (q ∧ q') := by
  cases polarity with
  | positive => exact And.imp h h'
  | negative => exact And.imp h h'
  | mixed => exact and_congr h h'

theorem Implies.not (h : polarity.flip.Implies p q) : polarity.Implies (¬ p) (¬ q) := by
  cases polarity with
  | positive => exact mt h
  | negative => exact mt h
  | mixed => exact not_congr h

theorem Implies.forall {α : Sort*} {f g : α → Prop} (h : ∀ a, polarity.Implies (f a) (g a)) :
    polarity.Implies (∀ a, f a) (∀ a, g a) := by
  cases polarity with
  | positive => exact fun hall a => h a (hall a)
  | negative => exact fun hall a => h a (hall a)
  | mixed => exact forall_congr' h

/-- One of those that meet a condition. -/
theorem Implies.exists_mem {α : Type} {s f g : α → Prop} (h : ∀ a, s a → polarity.Implies (f a) (g a)) :
    polarity.Implies (∃ a, s a ∧ f a) (∃ a, s a ∧ g a) := by
  cases polarity with
  | positive => exact fun ⟨a, ha, hf⟩ => ⟨a, ha, h a ha hf⟩
  | negative => exact fun ⟨a, ha, hg⟩ => ⟨a, ha, h a ha hg⟩
  | mixed => exact exists_congr fun a => and_congr_right fun ha => h a ha

/-- What follows from the same condition. -/
theorem Implies.of_condition (hp : p ↔ p') (h : polarity.Implies q q') : polarity.Implies (p → q) (p' → q') := by
  rw [propext hp]
  exact .forall fun _ => h

end Polarity
end SchemaBound
