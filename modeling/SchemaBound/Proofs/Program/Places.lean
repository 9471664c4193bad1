import SchemaBound.Proofs.Instance.DisciplinedWrites
import SchemaBound.Proofs.Program.Frame

/-! Places inside instances: how tokens lead from an instance to one that it holds. An edit at a pointer writes to the
instance at the end of the way, and each instance on the way is given the changed one in place of the one it held. -/
namespace SchemaBound
open Success

/-- The instance that it is, if it is not plain. -/
def FieldValue.instance? : FieldValue → Option Instance
  | .plain _ => none
  | .model m => some (.model m)
  | .sequence s => some (.sequence s)

/-- The instance that it is, if it is not plain. -/
def Element.instance? : Element → Option Instance
  | .plain _ => none
  | .model m => some (.model m)

namespace Instance

/-- The instance in the field or at the position of the token. -/
def held? : Instance → String → Option Instance
  | .model m, name => (m.get? name).bind FieldValue.instance?
  | .sequence s, token => (Pointer.index? s.size token).bind fun i => (s.get? i).bind Element.instance?

/-- The instance that tokens lead to. -/
def inner? : Instance → List String → Option Instance
  | i, [] => some i
  | i, token :: rest => (i.held? token).bind (inner? · rest)

/-- The value in the field or at the position of the token. -/
def stored? : Instance → String → Option Json
  | .model m, name => m.value? name
  | .sequence s, token => (Pointer.index? s.size token).bind fun i => (s.get? i).map Element.toJson

theorem inner?_cons (i : Instance) (token : String) (rest : List String) :
    i.inner? (token :: rest) = (i.held? token).bind (inner? · rest) := rfl

@[simp] theorem instance?_toFieldValue (i : Instance) : i.toFieldValue.instance? = some i := by
  cases i <;> rfl

@[simp] theorem toJson_toFieldValue (i : Instance) : i.toFieldValue.toJson = i.toJson := by
  cases i <;> rfl

@[simp] theorem adopt_toFieldValue (i : Instance) (canonical : Option Json) :
    i.toFieldValue.adopt canonical = i.toFieldValue := by
  cases i <;> rfl

theorem obeys_toFieldValue {d : Discipline} {i : Instance} : i.toFieldValue.Obeys d ↔ i.Obeys d := by
  cases i <;> rfl

end Instance

section Slots

variable {fields : List Field} {values : List (Option FieldValue)} {name : String} {slot : Nat} {field : Field}
  {current : Option FieldValue}

/-- Whatever is put at the position of a name is held under the name. -/
theorem heldIn?_set_self (h : slotIn? name fields values = some (slot, field, current))
    (value : Option FieldValue) : heldIn? name fields (values.set slot value) = value := by
  induction fields generalizing values slot with
  | nil => simp [slotIn?] at h
  | cons first fields ih =>
    cases values with
    | nil => simp [slotIn?_nil] at h
    | cons held values =>
      rw [slotIn?_cons] at h
      by_cases hname : first.name = name
      · rw [if_pos hname] at h
        obtain ⟨rfl, _⟩ := Prod.mk.inj (Option.some.inj h)
        rw [List.set_cons_zero, heldIn?_cons, if_pos hname]
      · rw [if_neg hname] at h
        obtain ⟨⟨slot', found⟩, hslot, hfound⟩ := Option.map_eq_some_iff.mp h
        obtain ⟨rfl, rfl⟩ := Prod.mk.inj hfound
        rw [List.set_cons_succ, heldIn?_cons, if_neg hname, ih hslot]

/-- What a commit leaves of what was put at the position of a name. -/
theorem Model.get?_of_commit_set {m after : Model} (hslot : m.slotOf? name = some (slot, field, current))
    {value : Option FieldValue} (h : m.type.commit (m.values.set slot value) = .ok after) :
    ∃ canonical, after.get? name = value.map (FieldValue.adopt canonical) := by
  obtain ⟨canonical, _, rfl⟩ := ModelType.commit_eq_ok.mp h
  refine ⟨canonical.get? name, ?_⟩
  rw [get?_eq_heldIn?, heldIn?_adoptFields, heldIn?_set_self hslot]

end Slots

theorem Sequence.size_of_commit {s after : Sequence} {items : List (Option Element)}
    (h : s.type.commit items = .ok after) : after.size = items.length := by
  obtain ⟨canonical, _, rfl⟩ := SequenceType.commit_eq_ok.mp h
  exact length_adoptElements _ items

/-- What a commit leaves of the element at a position. -/
theorem Sequence.get?_of_commit_items {s after : Sequence} {items : List (Option Element)}
    (h : s.type.commit items = .ok after) {i : Nat} {item : Option Element} (hitem : items[i]? = some item) :
    ∃ canonical, after.get? i = item.map (Element.adopt canonical) := by
  obtain ⟨canonical, _, rfl⟩ := SequenceType.commit_eq_ok.mp h
  exact ⟨_, by rw [get?, getElem?_adoptElements, hitem]; rfl⟩

namespace Instance

/-- The last instance is the first one with another instance put where the token leads: the field or the position is
given the changed instance, and all is committed anew. -/
inductive Exchanges : Instance → String → Instance → Instance → Instance → Prop
  | field {m after : Model} {name : String} {slot : Nat} {field : Field} {held changed : Instance} :
      m.slotOf? name = some (slot, field, some held.toFieldValue) →
      m.type.commit (m.values.set slot (some changed.toFieldValue)) = .ok after →
      Exchanges (.model m) name held changed (.model after)
  | element {s after : Sequence} {token : String} {i : Nat} {held changed : Model} :
      Pointer.index? s.size token = some i → s.get? i = some (.model held) →
      s.type.commit (s.items.set i (some (.model changed))) = .ok after →
      Exchanges (.sequence s) token (.model held) (.model changed) (.sequence after)

/-- What an edit writes to the instance that holds its target, by the operation on fields or on elements. -/
inductive Writes [Memory] : Edit → String → Instance → Instance → Prop
  | set {m after : Model} {name : String} {v : Json} : m.set name (.plain v) = .ok after →
      Writes (.set v) name (.model m) (.model after)
  | unset {m after : Model} {name : String} : m.unset name = .ok after →
      Writes .unset name (.model m) (.model after)
  | assign {s after : Sequence} {token : String} {i : Nat} {v : Json} : Pointer.index? s.size token = some i →
      s.setAt i (.plain v) = .ok after → Writes (.set v) token (.sequence s) (.sequence after)
  | remove {s after : Sequence} {token : String} {i : Nat} {removed : List (Option Element)} :
      Pointer.index? s.size token = some i → i < s.size → s.spliceAt i 1 [] = .ok (removed, after) →
      Writes .unset token (.sequence s) (.sequence after)

/-- The last instance is the first one with another instance put where the way leads, and everything around it committed
anew. -/
inductive ExchangesBelow (held changed : Instance) : List String → Instance → Instance → Prop
  | here : ExchangesBelow held changed [] held changed
  | inside {token : String} {rest : List String} {i inner innerAfter after : Instance} :
      i.Exchanges token inner innerAfter after → ExchangesBelow held changed rest inner innerAfter →
      ExchangesBelow held changed (token :: rest) i after

/-- What an edit that succeeds does: it writes to the instance before the last token, and exchanges that. -/
def Edits [Memory] (change : Edit) (tokens : List String) (i after : Instance) : Prop :=
  ∃ way last held changed, tokens = way ++ [last] ∧ held.Writes change last changed ∧
    ExchangesBelow held changed way i after

theorem Writes.edits [Memory] {change : Edit} {token : String} {i after : Instance} (h : i.Writes change token after) :
    Edits change [token] i after :=
  ⟨[], token, i, after, rfl, h, .here⟩

theorem Exchanges.edits [Memory] {change : Edit} {token : String} {tokens : List String}
    {i held changed after : Instance}
    (h : i.Exchanges token held changed after) (hrest : Edits change tokens held changed) :
    Edits change (token :: tokens) i after := by
  obtain ⟨way, last, target, written, rfl, hwrites, hexchanges⟩ := hrest
  exact ⟨token :: way, last, target, written, rfl, hwrites, .inside h hexchanges⟩

section Ways

variable {α : Type} {a : α}

theorem exchanges_of_withModel {m after : Model} {name : String} {f : Model → Except Error (α × Model)}
    (h : m.withModel name f = .ok (a, after)) :
    ∃ nested changed, f nested = .ok (a, changed) ∧
      (model m).Exchanges name (.model nested) (.model changed) (.model after) := by
  obtain ⟨slot, field, nested, changed, hslot, hchanged, hcommit⟩ := Model.withModel_eq_ok.mp h
  exact ⟨nested, changed, hchanged, @Exchanges.field _ _ _ _ _ (.model nested) (.model changed) hslot hcommit⟩

theorem exchanges_of_withSequence {m after : Model} {name : String} {f : Sequence → Except Error (α × Sequence)}
    (h : m.withSequence name f = .ok (a, after)) :
    ∃ nested changed, f nested = .ok (a, changed) ∧
      (model m).Exchanges name (.sequence nested) (.sequence changed) (.model after) := by
  obtain ⟨slot, field, nested, changed, hslot, hchanged, hcommit⟩ := Model.withSequence_eq_ok.mp h
  exact ⟨nested, changed, hchanged, @Exchanges.field _ _ _ _ _ (.sequence nested) (.sequence changed) hslot hcommit⟩

theorem exchanges_of_updateAt {s after : Sequence} {token : String} {i : Nat} {f : Model → Except Error (α × Model)}
    (hi : Pointer.index? s.size token = some i) (h : s.updateAt i f = .ok (a, after)) :
    ∃ nested changed, f nested = .ok (a, changed) ∧
      (sequence s).Exchanges token (.model nested) (.model changed) (.sequence after) := by
  obtain ⟨nested, changed, hget, hchanged, hcommit⟩ := Sequence.updateAt_eq_ok.mp h
  exact ⟨nested, changed, hchanged, .element hi hget hcommit⟩

/-- Edits are made in this way, of whatever writes. -/
theorem carries_edits [Memory] (change : Edit) : change.Carries
    (fun tokens m after => Edits change tokens (.model m) (.model after))
    (fun tokens s after => Edits change tokens (.sequence s) (.sequence after)) where
  set hchange h := hchange ▸ Writes.edits (.set h)
  unset hchange h := hchange ▸ Writes.edits (.unset h)
  assign hchange hi h := hchange ▸ Writes.edits (.assign hi h)
  remove hchange hi hlt h := hchange ▸ Writes.edits (.remove hi hlt h)
  withModel h hnested := by
    obtain ⟨nested, changed, hchanged, hexchanges⟩ := exchanges_of_withModel h
    exact hexchanges.edits (hnested nested changed hchanged)
  withSequence h hnested := by
    obtain ⟨nested, changed, hchanged, hexchanges⟩ := exchanges_of_withSequence h
    exact hexchanges.edits (hnested nested changed hchanged)
  updateAt hi h hnested := by
    obtain ⟨nested, changed, hchanged, hexchanges⟩ := exchanges_of_updateAt hi h
    exact hexchanges.edits (hnested nested changed hchanged)

end Ways

namespace Exchanges

variable {i held changed after : Instance} {token : String}

theorem held? (h : i.Exchanges token held changed after) : i.held? token = some held := by
  cases h with
  | field hslot _ =>
    rw [Instance.held?, Model.get?_eq, hslot]
    exact instance?_toFieldValue held
  | element hi hget _ =>
    rw [Instance.held?, hi, Option.bind_some, hget]
    rfl

/-- The way to the changed instance is the way to the one that it was put in place of. -/
theorem held?_after (h : i.Exchanges token held changed after) : after.held? token = some changed := by
  cases h with
  | field hslot hcommit =>
    obtain ⟨canonical, hget⟩ := Model.get?_of_commit_set hslot hcommit
    rw [Instance.held?, hget, Option.map_some, adopt_toFieldValue]
    exact instance?_toFieldValue changed
  | @element s after _ k held changed hi hget hcommit =>
    have hlt : k < s.items.length := (List.getElem?_eq_some_iff.mp (Option.join_eq_some_iff.mp hget)).1
    obtain ⟨canonical, hitem⟩ := Sequence.get?_of_commit_items hcommit (List.getElem?_set_self hlt)
    have hsize : after.size = s.size := (Sequence.size_of_commit hcommit).trans List.length_set
    rw [Instance.held?, hsize, hi, Option.bind_some, hitem]
    rfl

theorem obeys {d : Discipline} (h : i.Exchanges token held changed after) (ho : i.Obeys d) : held.Obeys d := by
  cases h with
  | @field m _ _ _ _ _ _ hslot _ =>
    have hget : m.get? token = some held.toFieldValue := by rw [Model.get?_eq, hslot]; rfl
    exact obeys_toFieldValue.mp (Model.obeys_of_get? ho hget)
  | element _ hget _ => exact (Sequence.suits_of_get? ho hget).obeys

end Exchanges

namespace ExchangesBelow

variable {held changed i after : Instance} {way : List String}

theorem inner? (h : ExchangesBelow held changed way i after) : i.inner? way = some held := by
  induction h with
  | here => rfl
  | inside hexchanges _ ih => rw [inner?_cons, hexchanges.held?, Option.bind_some, ih]

theorem inner?_after (h : ExchangesBelow held changed way i after) : after.inner? way = some changed := by
  induction h with
  | here => rfl
  | inside hexchanges _ ih => rw [inner?_cons, hexchanges.held?_after, Option.bind_some, ih]

theorem obeys {d : Discipline} (h : ExchangesBelow held changed way i after) (ho : i.Obeys d) : held.Obeys d := by
  induction h with
  | here => exact ho
  | inside hexchanges _ ih => exact ih (hexchanges.obeys ho)

end ExchangesBelow
end Instance
end SchemaBound
