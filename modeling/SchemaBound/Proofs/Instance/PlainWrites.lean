import SchemaBound.Proofs.Instance.Sound

/-! Writes of plain values keep instances sound, and commit them. -/
namespace SchemaBound
open Json Success

variable {α : Type}

theorem forall₂_set {β γ : Type} {R : β → γ → Prop} {left : List β} {right : List γ}
    (h : List.Forall₂ R left right) {i : Nat} {b : β} {c : γ} (hb : left[i]? = some b) (hc : R b c) :
    List.Forall₂ R left (right.set i c) := by
  induction h generalizing i with
  | nil => exact .nil
  | cons hfirst hrest ih =>
    cases i with
    | zero =>
      obtain rfl := Option.some.inj hb
      exact .cons hc hrest
    | succ i => exact .cons hfirst (ih hb)

theorem forall₂_getElem {β γ : Type} {R : β → γ → Prop} {left : List β} {right : List γ}
    (h : List.Forall₂ R left right) {i : Nat} {b : β} {c : γ} (hb : left[i]? = some b)
    (hc : right[i]? = some c) : R b c := by
  induction h generalizing i with
  | nil => cases hb
  | cons hfirst hrest ih =>
    cases i with
    | zero =>
      obtain rfl := Option.some.inj hb
      obtain rfl := Option.some.inj hc
      exact hfirst
    | succ i => exact ih hb hc

namespace Model

variable {m after : Model} {name : String}

/-- A field that is found holds what fits it, and what replaces it has to. -/
theorem isOf_of_commit_set (hc : m.type.Throughout Blueprint.IsReadable) (hs : m.IsSound) {slot : Nat}
    {field : Field} {current value : Option FieldValue} (hslot : m.slotOf? name = some (slot, field, current))
    (hvalue : SlotFits field.kind current → field.kind.Throughout Blueprint.IsReadable → SlotFits field.kind value)
    (h : m.type.commit (m.values.set slot value) = .ok after) : after.IsOf m.type := by
  obtain ⟨hfield, hcurrent, _⟩ := slotOf?_eq_some hslot
  have hfits := slotsFit_iff.mp (isSound_iff.mp hs)
  obtain ⟨hself, hkinds⟩ := ModelType.throughout_iff.mp hc
  have hnew := hvalue (forall₂_getElem hfits hfield hcurrent) (hkinds field (List.mem_of_getElem? hfield))
  exact ModelType.isOf_of_commit hself (slotsFit_iff.mpr (forall₂_set hfits hfield hnew)) h

theorem isOf_of_set (hc : m.type.Throughout Blueprint.IsReadable) (hs : m.IsSound) {v : Json}
    (h : m.set name (.plain v) = .ok after) : after.IsOf m.type := by
  obtain ⟨slot, field, current, staged, hslot, hstaged, hcommit⟩ := set_eq_ok.mp h
  rw [FieldKind.stage] at hstaged
  refine isOf_of_commit_set hc hs hslot (fun hcurrent hkind => ?_) hcommit
  exact slotFits_some.mpr (fits_of_mergeValue hkind hcurrent hstaged)

theorem isOf_of_replace (hc : m.type.Throughout Blueprint.IsReadable) (hs : m.IsSound) {v : Json}
    (h : m.replace name (.plain v) = .ok after) : after.IsOf m.type := by
  obtain ⟨slot, field, current, staged, hslot, hstaged, hcommit⟩ := replace_eq_ok.mp h
  rw [FieldKind.stage] at hstaged
  refine isOf_of_commit_set hc hs hslot (fun _ hkind => ?_) hcommit
  exact slotFits_some.mpr (fits_of_mergeValue hkind slotFits_none hstaged)

theorem isOf_of_unset (hc : m.type.Throughout Blueprint.IsReadable) (hs : m.IsSound)
    (h : m.unset name = .ok after) : after.IsOf m.type := by
  obtain ⟨slot, field, current, hslot, hcommit⟩ := unset_eq_ok.mp h
  exact isOf_of_commit_set hc hs hslot (fun _ _ => slotFits_none) hcommit

theorem isOf_of_setData (hc : m.type.Throughout Blueprint.IsReadable) {data : Json}
    (h : m.setData data = .ok after) : after.IsOf m.type := by
  unfold setData at h
  split at h
  · exact ModelType.isOf_of_build hc h
  · cases h

theorem isOf_of_updateData (hc : m.type.Throughout Blueprint.IsReadable) (hs : m.IsSound) {data : Json}
    (h : m.updateData data = .ok after) : after.IsOf m.type := by
  unfold updateData at h
  split at h
  · exact isOf_of_merge hc hs h
  · cases h

theorem isOf_of_withModel (hc : m.type.Throughout Blueprint.IsReadable) (hs : m.IsSound)
    {f : Model → Except Error (α × Model)} {a : α}
    (hf : ∀ type nested changed, type.Throughout Blueprint.IsReadable → m.model? name = some nested →
      nested.IsOf type → f nested = .ok (a, changed) → changed.IsOf type)
    (h : m.withModel name f = .ok (a, after)) : after.IsOf m.type := by
  obtain ⟨slot, field, nested, changed, hslot, hchanged, hcommit⟩ := withModel_eq_ok.mp h
  have hnested : m.model? name = some nested := model?_of_slotOf? hslot
  refine isOf_of_commit_set hc hs hslot (fun hcurrent hkind => ?_) hcommit
  obtain ⟨type, heq, hof⟩ := FieldValue.fits_model.mp (slotFits_some.mp hcurrent)
  rw [heq, FieldKind.throughout_object] at hkind
  exact slotFits_some.mpr (FieldValue.fits_model.mpr ⟨type, heq, hf type nested changed hkind hnested hof hchanged⟩)

theorem isOf_of_withSequence (hc : m.type.Throughout Blueprint.IsReadable) (hs : m.IsSound)
    {f : Sequence → Except Error (α × Sequence)} {a : α}
    (hf : ∀ type nested changed, type.Throughout Blueprint.IsReadable → m.sequence? name = some nested →
      nested.IsOf type → f nested = .ok (a, changed) → changed.IsOf type)
    (h : m.withSequence name f = .ok (a, after)) : after.IsOf m.type := by
  obtain ⟨slot, field, nested, changed, hslot, hchanged, hcommit⟩ := withSequence_eq_ok.mp h
  have hnested : m.sequence? name = some nested := sequence?_of_slotOf? hslot
  refine isOf_of_commit_set hc hs hslot (fun hcurrent hkind => ?_) hcommit
  obtain ⟨type, heq, hof⟩ := FieldValue.fits_sequence.mp (slotFits_some.mp hcurrent)
  rw [heq, FieldKind.throughout_array] at hkind
  exact slotFits_some.mpr
    (FieldValue.fits_sequence.mpr ⟨type, heq, hf type nested changed hkind hnested hof hchanged⟩)

end Model

namespace Sequence

variable {s after : Sequence}

/-- Staged elements are old ones or fit by themselves. -/
theorem isOf_of_items (hc : s.type.Throughout Blueprint.IsReadable) (hs : s.IsSound)
    {staged : List (Option Element)}
    (hstaged : ∀ item ∈ staged, item ∈ s.items ∨ ∀ e, item = some e → e.Fits s.type.element)
    (h : s.type.commit staged = .ok after) : after.IsOf s.type := by
  refine SequenceType.isOf_of_commit hc.self (elementsFit_iff.mpr fun item hitem e he => ?_) h
  rcases hstaged item hitem with hold | hnew
  · exact elementsFit_iff.mp (isSound_iff.mp hs) item hold e he
  · exact hnew e he

theorem fits_of_stage (hc : s.type.Throughout Blueprint.IsReadable) {v : Json} {e : Element}
    (h : s.type.stage (.plain v) = .ok e) : e.Fits s.type.element :=
  fits_of_buildElement (SequenceType.throughout_iff.mp hc).2 h

theorem fits_of_stageFrom (hc : s.type.Throughout Blueprint.IsReadable) {start : Nat} {inputs : List Element}
    (hplain : ∀ input ∈ inputs, ∃ v, input = .plain v) {staged : List (Option Element)}
    (h : s.type.stageFrom start inputs = .ok staged) :
    ∀ item ∈ staged, ∀ e, item = some e → e.Fits s.type.element := by
  intro item hitem e he
  obtain ⟨⟨input, i⟩, hinput, hstage⟩ := exists_of_mem_results h hitem
  simp only [bind_eq_ok, mapError_eq_ok, pure_eq_ok] at hstage
  obtain ⟨e', he', rfl⟩ := hstage
  obtain rfl := Option.some.inj he
  obtain ⟨v, rfl⟩ := hplain input (List.fst_mem_of_mem_zipIdx hinput)
  exact fits_of_stage hc he'

variable (hc : s.type.Throughout Blueprint.IsReadable) (hs : s.IsSound)
include hc hs

theorem isOf_of_append {v : Json} (h : s.append (.plain v) = .ok after) : after.IsOf s.type := by
  obtain ⟨e, he, hcommit⟩ := append_eq_ok.mp h
  refine isOf_of_items hc hs (fun item hitem => ?_) hcommit
  rcases List.mem_append.mp hitem with hold | hnew
  · exact Or.inl hold
  · obtain rfl := List.mem_singleton.mp hnew
    refine Or.inr fun e' he' => ?_
    obtain rfl := Option.some.inj he'
    exact fits_of_stage hc he

theorem isOf_of_push {inputs : List Element} (hplain : ∀ input ∈ inputs, ∃ v, input = .plain v)
    (h : s.push inputs = .ok after) : after.IsOf s.type := by
  obtain ⟨staged, hstaged, hcommit⟩ := push_eq_ok.mp h
  refine isOf_of_items hc hs (fun item hitem => ?_) hcommit
  rcases List.mem_append.mp hitem with hold | hnew
  · exact Or.inl hold
  · exact Or.inr (fits_of_stageFrom hc hplain hstaged item hnew)

theorem isOf_of_prepend {inputs : List Element} (hplain : ∀ input ∈ inputs, ∃ v, input = .plain v)
    (h : s.prepend inputs = .ok after) : after.IsOf s.type := by
  obtain ⟨staged, hstaged, hcommit⟩ := prepend_eq_ok.mp h
  refine isOf_of_items hc hs (fun item hitem => ?_) hcommit
  rcases List.mem_append.mp hitem with hnew | hold
  · exact Or.inr (fits_of_stageFrom hc hplain hstaged item hnew)
  · exact Or.inl hold

/-- Where there is something to remove, removing it commits. -/
theorem isOf_of_removeLast {removed : Option Element} (h : s.removeLast = .ok (removed, after)) :
    (s.size = 0 ∧ after = s) ∨ after.IsOf s.type := by
  rcases removeLast_eq_ok.mp h with ⟨hempty, _, rfl⟩ | ⟨_, hcommit⟩
  · exact Or.inl ⟨List.length_eq_zero_iff.mpr hempty, rfl⟩
  · have hstaged (item : Option Element) (hitem : item ∈ s.items.dropLast) : item ∈ s.items :=
      List.dropLast_subset _ hitem
    exact Or.inr (isOf_of_items hc hs (fun item hitem => Or.inl (hstaged item hitem)) hcommit)

theorem isOf_of_removeFirst {removed : Option Element} (h : s.removeFirst = .ok (removed, after)) :
    (s.size = 0 ∧ after = s) ∨ after.IsOf s.type := by
  rcases removeFirst_eq_ok.mp h with ⟨hempty, _, rfl⟩ | ⟨rest, hitems, hcommit⟩
  · exact Or.inl ⟨List.length_eq_zero_iff.mpr hempty, rfl⟩
  · have hstaged (item : Option Element) (hitem : item ∈ rest) : item ∈ s.items :=
      hitems ▸ List.mem_cons_of_mem _ hitem
    exact Or.inr (isOf_of_items hc hs (fun item hitem => Or.inl (hstaged item hitem)) hcommit)

theorem isOf_of_setAt [Memory] {i : Nat} {v : Json} (h : s.setAt i (.plain v) = .ok after) : after.IsOf s.type := by
  obtain ⟨_, e, he, hcommit⟩ := setAt_eq_ok.mp h
  refine isOf_of_items hc hs (fun item hitem => ?_) hcommit
  rcases List.mem_or_eq_of_mem_set hitem with hitem | rfl
  · rcases List.mem_append.mp hitem with hold | hhole
    · exact Or.inl hold
    · obtain ⟨_, rfl⟩ := List.mem_replicate.mp hhole
      exact Or.inr fun e he => nomatch he
  · refine Or.inr fun e' he' => ?_
    obtain rfl := Option.some.inj he'
    exact fits_of_stage hc he

theorem isOf_of_spliceAt {start count : Nat} {inputs : List Element}
    (hplain : ∀ input ∈ inputs, ∃ v, input = .plain v) {removed : List (Option Element)}
    (h : s.spliceAt start count inputs = .ok (removed, after)) : after.IsOf s.type := by
  obtain ⟨_, inserted, hinserted, hcommit⟩ := spliceAt_eq_ok.mp h
  refine isOf_of_items hc hs (fun item hitem => ?_) hcommit
  rcases List.mem_append.mp hitem with hitem | hitem
  · rcases List.mem_append.mp hitem with hitem | hitem
    · exact Or.inl (List.mem_of_mem_take hitem)
    · exact Or.inr (fits_of_stageFrom hc hplain hinserted item hitem)
  · exact Or.inl (List.mem_of_mem_drop (List.mem_of_mem_drop hitem))

theorem isOf_of_updateAt {i : Nat} {f : Model → Except Error (α × Model)} {a : α}
    (hf : ∀ type nested changed, type.Throughout Blueprint.IsReadable → s.get? i = some (.model nested) →
      nested.IsOf type → f nested = .ok (a, changed) → changed.IsOf type)
    (h : s.updateAt i f = .ok (a, after)) : after.IsOf s.type := by
  obtain ⟨nested, changed, hnested, hchanged, hcommit⟩ := updateAt_eq_ok.mp h
  refine isOf_of_items hc hs (fun item hitem => ?_) hcommit
  rcases List.mem_or_eq_of_mem_set hitem with hitem | rfl
  · exact Or.inl hitem
  · refine Or.inr fun e he => ?_
    obtain rfl := Option.some.inj he
    have hold : (Element.model nested).Fits s.type.element := by
      have hitem : some (Element.model nested) ∈ s.items :=
        List.mem_of_getElem? (Option.join_eq_some_iff.mp hnested)
      exact elementsFit_iff.mp (isSound_iff.mp hs) _ hitem _ rfl
    obtain ⟨type, heq, hof⟩ := Element.fits_model.mp hold
    have helement := (SequenceType.throughout_iff.mp hc).2
    rw [heq, elementThroughout_some] at helement
    exact Element.fits_model.mpr ⟨type, heq, hf type nested changed helement hnested hof hchanged⟩

end Sequence

section Edits

variable [Memory] {pointer : String}

/-- An edit keeps every level on its way committed and sound. -/
theorem Edit.carries_isOf (change : Edit) : change.Carries
    (fun _ m after => m.type.Throughout Blueprint.IsReadable → m.IsSound → after.IsOf m.type)
    (fun _ s after => s.type.Throughout Blueprint.IsReadable → s.IsSound → after.IsOf s.type) where
  set _ h hc hs := Model.isOf_of_set hc hs h
  unset _ h hc hs := Model.isOf_of_unset hc hs h
  assign _ _ h hc hs := Sequence.isOf_of_setAt hc hs h
  remove _ _ _ h hc hs := Sequence.isOf_of_spliceAt hc hs (by simp) h
  withModel h hnested hc hs := by
    refine Model.isOf_of_withModel hc hs (fun type nested changed htype _ hof hchanged => ?_) h
    obtain ⟨rfl, _, hsound⟩ := hof
    exact hnested nested changed hchanged htype hsound
  withSequence h hnested hc hs := by
    refine Model.isOf_of_withSequence hc hs (fun type nested changed htype _ hof hchanged => ?_) h
    obtain ⟨rfl, _, hsound⟩ := hof
    exact hnested nested changed hchanged htype hsound
  updateAt _ h hnested hc hs := by
    refine Sequence.isOf_of_updateAt hc hs (fun type nested changed htype _ hof hchanged => ?_) h
    obtain ⟨rfl, _, hsound⟩ := hof
    exact hnested nested changed hchanged htype hsound

theorem Model.isOf_of_setPointer {m after : Model} (hc : m.type.Throughout Blueprint.IsReadable) (hs : m.IsSound)
    {v : Json} (h : m.setPointer pointer v = .ok after) : after.IsOf m.type := by
  obtain ⟨tokens, _, hedit⟩ := bind_eq_ok.mp h
  exact (Edit.carries_isOf _).model hedit hc hs

theorem Model.isOf_of_unsetPointer {m after : Model} (hc : m.type.Throughout Blueprint.IsReadable)
    (hs : m.IsSound) (h : m.unsetPointer pointer = .ok after) : after.IsOf m.type := by
  obtain ⟨tokens, _, hedit⟩ := bind_eq_ok.mp h
  exact (Edit.carries_isOf _).model hedit hc hs

end Edits
end SchemaBound
