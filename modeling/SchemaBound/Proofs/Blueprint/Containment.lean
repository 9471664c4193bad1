import SchemaBound.Proofs.Blueprint.Places
import SchemaBound.Proofs.Failure

/-! Ways through a document that come back: chains of references, alternatives within alternatives, and
types within types. -/
namespace SchemaBound
open Relation

variable {document : Json} {place target : Place}

namespace Place

/-- An alternative of the first place stands for the second. -/
def Nests (document : Json) (place inner : Place) : Prop :=
  ∃ entry, Offers place entry ∧ entry.resolve document = .ok inner

/-- A rule stands for an object, or for an array whose elements may be an object. -/
inductive Holds (document : Json) (rule : Place) : Place → Prop
  | object {object : Place} :
      rule.resolve document = .ok object → HasShape document object .object → Holds document rule object
  | array {array object : Place} :
      rule.resolve document = .ok array → HasShape document array .array →
      Elements.object? document array = .ok (some object) → Holds document rule object

/-- The second place is an object that is compiled for the first one: for a field of an object or for the
elements of an array. -/
inductive Contains (document : Json) : Place → Place → Prop
  | property {place rule object : Place} :
      HasShape document place .object → Declares place rule → Holds document rule object →
      Contains document place object
  | element {place object : Place} :
      HasShape document place .array → Elements.object? document place = .ok (some object) →
      Contains document place object

/-- The steps lead from the place back to its pointer. -/
def Recurs (step : Place → Place → Prop) (place : Place) : Prop :=
  ∃ again, TransGen step place again ∧ again.pointer = place.pointer

/-- No chain of steps from a place that can be come to is longer than the bound, unless it passes a
pointer twice. -/
def ChainsWithin (document : Json) (step : Place → Place → Prop) (bound : Nat) : Prop :=
  ∀ place chain, Reached document place → List.IsChain step (place :: chain) →
    ((place :: chain).map pointer).Nodup → chain.length ≤ bound

theorem Reached.refersStar (hp : Reached document place) (h : ReflTransGen (Refers document) place target) :
    Reached document target := by
  induction h with
  | refl => exact hp
  | tail _ hstep ih => exact .reference ih hstep

theorem Reached.nests (hp : Reached document place) (h : Nests document place target) :
    Reached document target := by
  obtain ⟨entry, hentry, hresolve⟩ := h
  exact (Reached.alternative hp hentry).resolve hresolve

theorem Reached.nestsStar (hp : Reached document place) (h : ReflTransGen (Nests document) place target) :
    Reached document target := by
  induction h with
  | refl => exact hp
  | tail _ hstep ih => exact ih.nests hstep

theorem Reached.contains (hp : Reached document place) (h : Contains document place target) :
    Reached document target ∧ HasShape document target .object := by
  cases h with
  | property hshape hdeclares hholds =>
    have hrule := Reached.property hp hshape hdeclares
    cases hholds with
    | object hresolve hobject => exact ⟨hrule.resolve hresolve, hobject⟩
    | array hresolve harray hobject => exact Elements.reached_of_object (hrule.resolve hresolve) harray hobject
  | element hshape hobject => exact Elements.reached_of_object hp hshape hobject

theorem Reached.containsStar (hp : Reached document place) (h : ReflTransGen (Contains document) place target) :
    Reached document target := by
  induction h with
  | refl => exact hp
  | tail _ hstep ih => exact (ih.contains hstep).1

section Chains

variable {step : Place → Place → Prop}

private theorem transGen_of_isChain {chain : List Place} (h : List.IsChain step (place :: chain))
    {later : Place} (hl : later ∈ chain) : TransGen step place later := by
  induction chain generalizing place with
  | nil => cases hl
  | cons next rest ih =>
    obtain ⟨hstep, hrest⟩ := List.isChain_cons_cons.mp h
    rcases List.mem_cons.mp hl with rfl | hl
    · exact .single hstep
    · exact .head hstep (ih hrest hl)

/-- A chain that passes a pointer twice leads to a place that recurs. -/
theorem exists_recurs_of_isChain {chain : List Place} (h : List.IsChain step (place :: chain))
    (hn : ¬ ((place :: chain).map pointer).Nodup) : ∃ again, ReflTransGen step place again ∧ Recurs step again := by
  induction chain generalizing place with
  | nil => exact absurd (List.nodup_singleton _) hn
  | cons next rest ih =>
    by_cases hmem : place.pointer ∈ (next :: rest).map pointer
    · obtain ⟨again, hagain, hpointer⟩ := List.mem_map.mp hmem
      exact ⟨place, .refl, again, transGen_of_isChain h hagain, hpointer⟩
    · obtain ⟨hstep, hrest⟩ := List.isChain_cons_cons.mp h
      have hrestdup : ¬ ((next :: rest).map pointer).Nodup := fun hnodup =>
        hn (List.nodup_cons.mpr ⟨hmem, hnodup⟩)
      obtain ⟨again, hway, hrecurs⟩ := ih hrest hrestdup
      exact ⟨again, .head hstep hway, hrecurs⟩

theorem ChainsWithin.exists_recurs {bound : Nat} (h : ChainsWithin document step bound)
    (hp : Reached document place) {chain : List Place} (hchain : List.IsChain step (place :: chain))
    (hlong : bound < chain.length) : ∃ again, ReflTransGen step place again ∧ Recurs step again := by
  refine exists_recurs_of_isChain hchain fun hnodup => ?_
  have hle := h place chain hp hchain hnodup
  omega

end Chains

/-- A chain of references that is given up has gone through all its hops. -/
theorem exists_chain_of_resolveIn {hops : Nat} {k : String}
    (h : resolveIn document hops place = .error (.cyclic k)) :
    ∃ chain, List.IsChain (Refers document) (place :: chain) ∧ chain.length = hops := by
  induction hops generalizing place with
  | zero => exact ⟨[], List.IsChain.singleton _, rfl⟩
  | succ hops ih =>
    unfold resolveIn at h
    split at h
    · cases h
    · rename_i reference href
      split at h
      · rename_i next hnext
        obtain ⟨chain, hchain, hlength⟩ := ih h
        have hrefers : Refers document place next := ⟨reference, href, hnext⟩
        exact ⟨next :: chain, List.isChain_cons_cons.mpr ⟨hrefers, hchain⟩, by rw [List.length_cons, hlength]⟩
      · cases h
    · cases h

theorem recurs_of_resolve (hwithin : ChainsWithin document (Refers document) 31)
    (hp : Reached document place) {k : String} (h : place.resolve document = .error (.cyclic k)) :
    ∃ again, Reached document again ∧ Recurs (Refers document) again := by
  obtain ⟨chain, hchain, hlength⟩ := exists_chain_of_resolveIn h
  have hlong : 31 < chain.length := by
    rw [hlength]
    decide
  obtain ⟨again, hway, hrecurs⟩ := hwithin.exists_recurs hp hchain hlong
  exact ⟨again, hp.refersStar hway, hrecurs⟩

end Place

namespace Shape
open Place

private theorem ofTypeName_ne_cyclic {pointer name k : String} : ofTypeName pointer name ≠ .error (.cyclic k) := by
  unfold ofTypeName
  split
  · nofun
  · nofun
  · split <;> nofun

private theorem ofTypeNames_ne_cyclic {pointer k : String} {names : List Json} :
    ofTypeNames pointer names ≠ .error (.cyclic k) := by
  intro h
  rcases Failure.bind_eq_error.mp h with h | ⟨shapes, _, h⟩
  · obtain ⟨name, _, h⟩ := Failure.exists_of_mapM_eq_error h
    split at h
    · exact ofTypeName_ne_cyclic h
    · cases h
  · split at h <;> exact Failure.pure_ne_error h

/-- The alternatives that a classification goes through are those that an expansion goes through. -/
private theorem alternatives_of_members {members : List (String × Json)} {keyword : String} {items : List Json}
    (htype : members.lookup "type" = none) (h : alternatives? members = some (keyword, .arr items)) :
    Elements.alternatives? (.obj members) = some (keyword, items) := by
  unfold alternatives? at h
  unfold Elements.alternatives?
  rw [if_neg (by rw [Json.get?, htype]; decide)]
  split at h
  · rename_i value hany
    obtain ⟨rfl, rfl⟩ := Prod.mk.inj (Option.some.inj h)
    simp [Json.get?, hany, Json.items?]
  · rename_i hany
    obtain ⟨value, hone, h⟩ := Option.map_eq_some_iff.mp h
    obtain ⟨rfl, rfl⟩ := Prod.mk.inj h
    simp [Json.get?, hany, hone, Json.items?]

/-- A classification is given up after as many nested unions as its depth allows, or at an alternative that
stands for nothing. -/
theorem exists_chain_of_ofPlaceIn {depth : Nat} {k : String} (hnone : place.node.get? "$ref" = none)
    (h : ofPlaceIn document depth place = .error (.cyclic k)) :
    (∃ chain, List.IsChain (Nests document) (place :: chain) ∧ chain.length = depth) ∨
      ∃ inner entry k', ReflTransGen (Nests document) place inner ∧ Offers inner entry ∧
        entry.resolve document = .error (.cyclic k') := by
  induction depth generalizing place with
  | zero => exact Or.inl ⟨[], List.IsChain.singleton _, rfl⟩
  | succ depth ih =>
    unfold ofPlaceIn at h
    split at h
    · cases h
    · rename_i members hnode
      split at h
      · exact absurd h ofTypeName_ne_cyclic
      · exact absurd h ofTypeNames_ne_cyclic
      · cases h
      · rename_i htype
        split at h
        · cases h
        · rename_i keyword items halt
          rcases Failure.bind_eq_error.mp h with h | ⟨_, _, h⟩
          · obtain ⟨entry, hentry, h⟩ := Failure.exists_of_forIn_eq_error h
            have hoffers : Offers place entry := by
              refine ⟨hnone, keyword, items, ?_, hentry⟩
              rw [hnode]
              exact alternatives_of_members htype halt
            rcases Failure.bind_eq_error.mp h with hresolve | ⟨inner, hresolve, h⟩
            · exact Or.inr ⟨place, entry, k, .refl, hoffers, hresolve⟩
            · have hnests : Nests document place inner := ⟨entry, hoffers, hresolve⟩
              rcases Failure.bind_eq_error.mp h with h | ⟨_, _, h⟩
              · rcases ih (noReference_of_resolve hresolve) h with
                  ⟨chain, hchain, hlength⟩ | ⟨last, entry', k', hway, hlast⟩
                · refine Or.inl ⟨inner :: chain, List.isChain_cons_cons.mpr ⟨hnests, hchain⟩, ?_⟩
                  rw [List.length_cons, hlength]
                · exact Or.inr ⟨last, entry', k', .head hnests hway, hlast⟩
              · exact absurd h Failure.pure_ne_error
          · exact absurd h Failure.pure_ne_error
        · cases h
    · cases h

end Shape
end SchemaBound
