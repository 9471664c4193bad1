import SchemaBound.Proofs.Instance.Slots

/-! Edits by the writes that they are made of. What holds of the writes to fields and elements, and is handed up by
changes of nested instances, holds of edits at any depth. -/
namespace SchemaBound
open Success

namespace Pointer

/-- The position that a write takes a token for, in a sequence of some length. -/
def index? (length : Nat) (token : String) : Option Nat :=
  if token = "-" then some length
  else if token.length > 1 ∧ token.toList.head? = some '0' then none
  else naturalText? token

theorem position_eq_ok {pointer token : String} {length i : Nat} :
    position pointer token length = .ok i ↔ index? length token = some i := by
  unfold position index?
  split_ifs with hdash hzeros
  · exact ⟨fun h => congrArg some (Except.ok.inj h), fun h => congrArg Except.ok (Option.some.inj h)⟩
  · constructor <;> nofun
  · cases naturalText? token with
    | none => constructor <;> nofun
    | some n => exact ⟨fun h => congrArg some (Except.ok.inj h), fun h => congrArg Except.ok (Option.some.inj h)⟩

/-- A pointer addresses what its tokens say, unless it is the one that addresses no field. -/
theorem target_of_tokens {pointer : String} {tokens : List String} (h : tokens? pointer = some tokens)
    (hroot : tokens ≠ [""]) : target pointer = .ok tokens := by
  have hne : pointer ≠ "/" := by
    rintro rfl
    exact hroot (Option.some.inj h).symm
  rw [target, if_neg hne, h]

theorem tokens_of_target {pointer : String} {tokens : List String} (h : target pointer = .ok tokens) :
    tokens? pointer = some tokens := by
  unfold target at h
  split at h
  · cases h
  · split at h
    · rename_i found hfound
      rw [hfound, Except.ok.inj h]
    · cases h

end Pointer

theorem eq_of_returned {β : Type} {x : Except Error β} {b : β}
    (h : (do return ((), ← x)) = Except.ok ((), b)) : x = .ok b := by
  obtain ⟨_, hx, h⟩ := bind_eq_ok.mp h
  obtain ⟨_, rfl⟩ := Prod.mk.inj (pure_eq_ok.mp h)
  exact hx

variable [Memory]

/-- What holds of the writes at the end of an edit, and of a change of a nested instance if it holds of what is done to
that instance. -/
structure Edit.Carries (change : Edit) (P : List String → Model → Model → Prop)
    (Q : List String → Sequence → Sequence → Prop) : Prop where
  set {m after : Model} {name : String} {v : Json} : change = .set v → m.set name (.plain v) = .ok after →
    P [name] m after
  unset {m after : Model} {name : String} : change = .unset → m.unset name = .ok after → P [name] m after
  assign {s after : Sequence} {token : String} {i : Nat} {v : Json} : change = .set v →
    Pointer.index? s.size token = some i → s.setAt i (.plain v) = .ok after → Q [token] s after
  remove {s after : Sequence} {token : String} {i : Nat} {removed : List (Option Element)} : change = .unset →
    Pointer.index? s.size token = some i → i < s.size → s.spliceAt i 1 [] = .ok (removed, after) → Q [token] s after
  withModel {m after : Model} {name : String} {rest : List String} {f : Model → Except Error (Unit × Model)} :
    m.withModel name f = .ok ((), after) → (∀ nested changed, f nested = .ok ((), changed) → P rest nested changed) →
    P (name :: rest) m after
  withSequence {m after : Model} {name : String} {rest : List String} {f : Sequence → Except Error (Unit × Sequence)} :
    m.withSequence name f = .ok ((), after) →
    (∀ nested changed, f nested = .ok ((), changed) → Q rest nested changed) → P (name :: rest) m after
  updateAt {s after : Sequence} {token : String} {i : Nat} {rest : List String}
    {f : Model → Except Error (Unit × Model)} : Pointer.index? s.size token = some i →
    s.updateAt i f = .ok ((), after) → (∀ nested changed, f nested = .ok ((), changed) → P rest nested changed) →
    Q (token :: rest) s after

namespace Edit.Carries

variable {pointer : String} {change : Edit} {P : List String → Model → Model → Prop}
  {Q : List String → Sequence → Sequence → Prop}

mutual
theorem model (hc : change.Carries P Q) : ∀ {tokens : List String} {m after : Model},
    m.edit pointer change tokens = .ok after → P tokens m after
  | [], m, after, h => by simp [Model.edit] at h
  | [name], m, after, h => by
    cases hchange : change with
    | set v =>
      rw [hchange, Model.edit] at h
      exact hc.set hchange h
    | unset =>
      rw [hchange, Model.edit] at h
      exact hc.unset hchange h
  | name :: next :: rest, m, after, h => by
    unfold Model.edit at h
    split at h
    · obtain ⟨⟨_, _⟩, hwith, rfl⟩ := map_eq_ok.mp h
      exact hc.withModel hwith fun _ _ hchanged => hc.model (eq_of_returned hchanged)
    · obtain ⟨⟨_, _⟩, hwith, rfl⟩ := map_eq_ok.mp h
      exact hc.withSequence hwith fun _ _ hchanged => hc.sequence (eq_of_returned hchanged)
    · split at h <;> cases h

theorem sequence (hc : change.Carries P Q) : ∀ {tokens : List String} {s after : Sequence},
    s.edit pointer change tokens = .ok after → Q tokens s after
  | [], s, after, h => by simp [Sequence.edit] at h
  | [token], s, after, h => by
    unfold Sequence.edit at h
    obtain ⟨i, hi, h⟩ := bind_eq_ok.mp h
    rw [Pointer.position_eq_ok] at hi
    cases hchange : change with
    | set v =>
      rw [hchange] at h
      exact hc.assign hchange hi h
    | unset =>
      rw [hchange] at h
      dsimp only at h
      split at h
      · rename_i hlt
        obtain ⟨⟨removed, _⟩, hsplice, rfl⟩ := map_eq_ok.mp h
        exact hc.remove hchange hi hlt hsplice
      · cases h
  | token :: next :: rest, s, after, h => by
    unfold Sequence.edit at h
    obtain ⟨i, hi, h⟩ := bind_eq_ok.mp h
    rw [Pointer.position_eq_ok] at hi
    split at h
    · obtain ⟨⟨_, _⟩, hupdate, rfl⟩ := map_eq_ok.mp h
      exact hc.updateAt hi hupdate fun _ _ hchanged => hc.model (eq_of_returned hchanged)
    · cases h
end

end Edit.Carries
end SchemaBound
