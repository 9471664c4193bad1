import SchemaBound.Blueprint.Place
import SchemaBound.Proofs.Draft7.Interpretation

/-! Schemas whose references mean what they mean in a document. Where two judgements come to the same schema, they ask
the same of a value. -/
namespace SchemaBound

/-- The schemas are the same, or objects that differ in definitions at most. -/
def Json.IsAkin (node node' : Json) : Prop :=
  node' = node ∨ ∃ members members', node = .obj members ∧ node' = .obj members' ∧ SameButDefinitions members members'

namespace Json.IsAkin

variable {node node' : Json}

theorem refl (node : Json) : node.IsAkin node := .inl rfl

theorem symm (h : node.IsAkin node') : node'.IsAkin node := by
  rcases h with rfl | ⟨members, members', rfl, rfl, hsame⟩
  · exact .inl rfl
  · exact .inr ⟨members', members, rfl, rfl, hsame.symm⟩

theorem trans {last : Json} (h : node.IsAkin node') (h' : node'.IsAkin last) : node.IsAkin last := by
  rcases h with rfl | ⟨members, members', rfl, rfl, hsame⟩
  · exact h'
  · rcases h' with rfl | ⟨_, members'', hobject, rfl, hsame'⟩
    · exact .inr ⟨members, members', rfl, rfl, hsame⟩
    · obtain rfl := Json.obj.inj hobject
      exact .inr ⟨members, members'', rfl, rfl, fun key hkey => (hsame key hkey).trans (hsame' key hkey)⟩

theorem get_eq (h : node.IsAkin node') {key : String} (hkey : ¬ isDefinitions key) :
    node'.get? key = node.get? key := by
  rcases h with rfl | ⟨members, members', rfl, rfl, hsame⟩
  · rfl
  · exact (hsame key hkey).symm

theorem exists_members {members : List (String × Json)} (h : (Json.obj members).IsAkin node') :
    ∃ members', node' = .obj members' ∧ SameButDefinitions members members' := by
  rcases h with rfl | ⟨_, members', hobject, rfl, hsame⟩
  · exact ⟨members, rfl, fun _ _ => rfl⟩
  · obtain rfl := Json.obj.inj hobject
    exact ⟨members', rfl, hsame⟩

theorem eq_of_not_isObject (h : node.IsAkin node') (hnode : node.isObject = false) : node' = node := by
  rcases h with rfl | ⟨members, members', rfl, rfl, _⟩
  · rfl
  · cases hnode

end Json.IsAkin

namespace Interpretation

variable {Context : Type} (I : Interpretation Context) (document : Json) (form : Json → Json)

/-- From the schema on, references lead to the places that they name in the document, to the form of what stands there,
and to nothing where they name none. All of it is of Draft 7. -/
structure IsFaithful (c : Context) (node : Json) : Prop where
  draft : I.draft c = .seven
  leads : ∀ {d members reference target}, I.Reaches c node d (.obj members) →
    members.lookup "$ref" = some (.str reference) → Place.target? document reference = some target →
    ∃ e, I.follow d reference = some (e, form target.node) ∧ I.draft e = .seven
  lost : ∀ {d members reference}, I.Reaches c node d (.obj members) → members.lookup "$ref" = some (.str reference) →
    Place.target? document reference = none → I.follow d reference = none

variable {I document form} {inspect : Json → Except SchemaError Unit} {judge : Json → Json → List Violation}
  {c c' d : Context} {members : List (String × Json)} {node node' v x : Json} {way : Polarity}

namespace IsFaithful

theorem part (h : I.IsFaithful document form c (.obj members)) (hdraft7 : I.IsDraft7 inspect judge)
    (hnone : members.lookup "$ref" = none) (hposes : Poses (I.draft c) I.occurs members way v node x) :
    I.IsFaithful document form (I.inside c members) node where
  draft := (hdraft7.draft_inside c members).trans h.draft
  leads hreaches := h.leads (.head ⟨v, x, .part hnone hposes⟩ hreaches)
  lost hreaches := h.lost (.head ⟨v, x, .part hnone hposes⟩ hreaches)

/-- A reference that names a place leads to the form of what stands there, which is faithful again. -/
theorem exists_target (h : I.IsFaithful document form c (.obj members)) {reference : String}
    (href : members.lookup "$ref" = some (.str reference)) {target : Place}
    (htarget : Place.target? document reference = some target) :
    ∃ d, I.follow c reference = some (d, form target.node) ∧ I.IsFaithful document form d (form target.node) := by
  obtain ⟨d, hfollow, hdraft⟩ := h.leads .refl href htarget
  have hstep {e : Context} {other : Json} (hreaches : I.Reaches d (form target.node) e other) :
      I.Reaches c (.obj members) e other :=
    .head ⟨.null, .null, .target href hfollow⟩ hreaches
  exact ⟨d, hfollow, hdraft, fun hreaches => h.leads (hstep hreaches), fun hreaches => h.lost (hstep hreaches)⟩

end IsFaithful

variable (I document form) in
/-- Faithful readings of one schema. -/
structure Agree (c : Context) (node : Json) (c' : Context) (node' : Json) : Prop where
  akin : node.IsAkin node'
  faithful : I.IsFaithful document form c node
  faithful' : I.IsFaithful document form c' node'

/-- Such readings ask the same of schemas that are read faithfully again. -/
theorem simulates_agree (h : I.IsDraft7 inspect judge) : I.Simulates fun _ => I.Agree document form where
  scalar hagree := hagree.akin.eq_of_not_isObject
  reference {_ c members c' node' reference} hagree href := by
    have href' : node'.get? "$ref" = some (.str reference) := (hagree.akin.get_eq (by decide)).trans href
    refine ⟨href', ?_⟩
    obtain ⟨members', rfl, _⟩ := hagree.akin.exists_members
    cases htarget : Place.target? document reference with
    | none => exact .inl ⟨hagree.faithful.lost .refl href htarget, hagree.faithful'.lost .refl href' htarget⟩
    | some target =>
      obtain ⟨d, hfollow, hfaithful⟩ := hagree.faithful.exists_target href htarget
      obtain ⟨d', hfollow', hfaithful'⟩ := hagree.faithful'.exists_target href' htarget
      exact .inr ⟨d, _, d', _, hfollow, hfollow', .refl _, hfaithful, hfaithful'⟩
  keywords {_ c members c' node'} hagree hnone := by
    obtain ⟨members', rfl, hsame⟩ := hagree.akin.exists_members
    have hnone' : members'.lookup "$ref" = none := (hsame "$ref" (by decide)).symm.trans hnone
    have hdraft : I.draft c = I.draft c' := hagree.faithful.draft.trans hagree.faithful'.draft.symm
    refine ⟨members', id, rfl, hnone', hdraft, fun v => h.own_iff_of_same hsame, fun admits v => ?_,
      fun way v node x hposes => ?_⟩
    · exact Polarity.implies_of_iff _ (MeetsRules.iff_of_same hsame)
    · have hposes' := hposes.of_same hsame
      have hposesThere : Poses (I.draft c') I.occurs members' way v node x := hdraft ▸ hposes'
      exact ⟨hposes', .refl node, hagree.faithful.part h hnone hposes, hagree.faithful'.part h hnone' hposesThere⟩

/-- What is met in one place is met by an equal schema in another. -/
theorem IsMet.congr (hmet : I.IsMet c node v) (h : I.IsDraft7 inspect judge)
    (hagree : I.Agree document form c node c' node')
    (hreads : I.reads c' node') (hfinite : I.IsFinite c' node' v) : I.IsMet c' node' v where
  reads := hreads
  distinct := hmet.distinct
  finite := hfinite
  admits :=
    have himplies : Polarity.positive.Implies (I.admits c node v) (I.admits c' node' v) :=
      (simulates_agree h).implies h hagree hmet.reads hreads hmet.distinct hmet.finite hfinite
    himplies hmet.admits

end Interpretation
end SchemaBound
