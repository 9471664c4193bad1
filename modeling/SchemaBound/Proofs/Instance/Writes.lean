import SchemaBound.Proofs.Instance.Edits

/-! Where the result of a write comes from: staged values that a commit accepted. -/
namespace SchemaBound
open Success

namespace ModelType

variable {type : ModelType} {m : Model}

theorem type_of_commit {staged : List (Option FieldValue)} (h : type.commit staged = .ok m) : m.type = type := by
  unfold commit at h
  split at h
  · obtain rfl := Except.ok.inj h
    rfl
  · cases h

theorem build_eq_ok {data : List (String × Json)} :
    type.build data = .ok m ↔ ∃ staged, buildFields type.fields data = .ok staged ∧ type.commit staged = .ok m := by
  obtain ⟨id, title, fields, validator, options⟩ := type
  rw [build, bind_eq_ok]

/-- Either an object was read, or the instance is empty. -/
theorem create_eq_ok {v : Json} :
    type.create v = .ok m ↔
      (∃ data, v = .obj data ∧ type.build data = .ok m) ∨ (v.isObject = false ∧ m = type.empty) := by
  cases v <;> simp [create, Json.isObject, eq_comm]

end ModelType

namespace SequenceType

variable {type : SequenceType} {s : Sequence}

theorem build_eq_ok {items : List Json} :
    type.build items = .ok s ↔
      ∃ elements, (items.zipIdx.mapM fun (v, i) =>
          (buildElement type.element v).mapError (Error.under (elementPointer i))) = .ok elements ∧
        type.commit (elements.map some) = .ok s := by
  obtain ⟨id, element, validator, options⟩ := type
  rw [build, bind_eq_ok]

/-- The elements are made one by one. -/
theorem build_eq_ok_iff_forall₂ {items : List Json} :
    type.build items = .ok s ↔
      ∃ elements, List.Forall₂ (fun v e => buildElement type.element v = .ok e) items elements ∧
        type.commit (elements.map some) = .ok s := by
  rw [build_eq_ok]
  refine exists_congr fun elements => and_congr_left fun _ => ?_
  have hindex : List.Forall₂ (fun v e => buildElement type.element v = .ok e) items elements ↔
      List.Forall₂ (fun input e => buildElement type.element input.1 = .ok e) items.zipIdx elements := by
    have hmap := List.forall₂_map_left_iff (R := fun v e => buildElement type.element v = .ok e) (f := Prod.fst)
      (l := items.zipIdx) (u := elements)
    rwa [List.zipIdx_map_fst] at hmap
  rw [hindex]
  exact ⟨fun h => (forall₂_of_mapM_eq_ok h).imp fun _ _ => mapError_eq_ok.mp,
    fun h => mapM_eq_ok_of_forall₂ (h.imp fun _ _ => mapError_eq_ok.mpr)⟩

end SequenceType

namespace Model

variable {α : Type} {m after : Model} {name : String}

theorem merge_eq_ok {data : List (String × Json)} :
    m.merge data = .ok after ↔
      ∃ staged, mergeFields m.type.fields m.values data = .ok staged ∧ m.type.commit staged = .ok after := by
  obtain ⟨type, values⟩ := m
  rw [merge, bind_eq_ok]

theorem map_change_eq_ok {f : Field → Option FieldValue → Except Error (Unit × Option FieldValue)} :
    (m.change name f).map (·.2) = .ok after ↔
      ∃ slot field current value, m.slotOf? name = some (slot, field, current) ∧ f field current = .ok ((), value) ∧
        m.type.commit (m.values.set slot value) = .ok after := by
  rw [map_eq_ok]
  constructor
  · rintro ⟨⟨_, _⟩, hchange, rfl⟩
    exact change_eq_ok.mp hchange
  · intro h
    exact ⟨((), after), change_eq_ok.mpr h, rfl⟩

theorem set_eq_ok {input : FieldValue} :
    m.set name input = .ok after ↔
      ∃ slot field current value, m.slotOf? name = some (slot, field, current) ∧
        field.kind.stage current input = .ok value ∧ m.type.commit (m.values.set slot (some value)) = .ok after := by
  unfold set
  simp only [map_change_eq_ok, bind_eq_ok, mapError_eq_ok, pure_eq_ok, Prod.mk.injEq, true_and]
  constructor
  · rintro ⟨slot, field, current, _, hslot, ⟨value, hvalue, rfl⟩, hcommit⟩
    exact ⟨slot, field, current, value, hslot, hvalue, hcommit⟩
  · rintro ⟨slot, field, current, value, hslot, hvalue, hcommit⟩
    exact ⟨slot, field, current, _, hslot, ⟨value, hvalue, rfl⟩, hcommit⟩

theorem replace_eq_ok {input : FieldValue} :
    m.replace name input = .ok after ↔
      ∃ slot field current value, m.slotOf? name = some (slot, field, current) ∧
        field.kind.stage none input = .ok value ∧ m.type.commit (m.values.set slot (some value)) = .ok after := by
  unfold replace
  simp only [map_change_eq_ok, bind_eq_ok, mapError_eq_ok, pure_eq_ok, Prod.mk.injEq, true_and]
  constructor
  · rintro ⟨slot, field, current, _, hslot, ⟨value, hvalue, rfl⟩, hcommit⟩
    exact ⟨slot, field, current, value, hslot, hvalue, hcommit⟩
  · rintro ⟨slot, field, current, value, hslot, hvalue, hcommit⟩
    exact ⟨slot, field, current, _, hslot, ⟨value, hvalue, rfl⟩, hcommit⟩

theorem unset_eq_ok :
    m.unset name = .ok after ↔
      ∃ slot field current, m.slotOf? name = some (slot, field, current) ∧
        m.type.commit (m.values.set slot none) = .ok after := by
  unfold unset
  rw [map_change_eq_ok]
  constructor
  · rintro ⟨slot, field, current, value, hslot, hvalue, hcommit⟩
    obtain ⟨_, rfl⟩ := Prod.mk.inj (Except.ok.inj hvalue)
    exact ⟨slot, field, current, hslot, hcommit⟩
  · rintro ⟨slot, field, current, hslot, hcommit⟩
    exact ⟨slot, field, current, none, hslot, rfl, hcommit⟩

theorem withModel_eq_ok {f : Model → Except Error (α × Model)} {a : α} :
    m.withModel name f = .ok (a, after) ↔
      ∃ slot field nested changed, m.slotOf? name = some (slot, field, some (.model nested)) ∧
        f nested = .ok (a, changed) ∧
        m.type.commit (m.values.set slot (some (.model changed))) = .ok after := by
  unfold withModel
  rw [change_eq_ok]
  constructor
  · rintro ⟨slot, field, current, value, hslot, hvalue, hafter⟩
    match current, hvalue with
    | some (.model nested), hvalue =>
      simp only [bind_eq_ok, pure_eq_ok, mapError_eq_ok, Prod.mk.injEq, Prod.exists] at hvalue
      obtain ⟨a', changed, hchanged, rfl, rfl⟩ := hvalue
      exact ⟨slot, field, nested, changed, hslot, hchanged, hafter⟩
  · rintro ⟨slot, field, nested, changed, hslot, hchanged, hafter⟩
    refine ⟨slot, field, _, _, hslot, ?_, hafter⟩
    simp only [bind_eq_ok, pure_eq_ok, mapError_eq_ok, Prod.mk.injEq, Prod.exists]
    exact ⟨a, changed, hchanged, rfl, rfl⟩

theorem withSequence_eq_ok {f : Sequence → Except Error (α × Sequence)} {a : α} :
    m.withSequence name f = .ok (a, after) ↔
      ∃ slot field nested changed, m.slotOf? name = some (slot, field, some (.sequence nested)) ∧
        f nested = .ok (a, changed) ∧
        m.type.commit (m.values.set slot (some (.sequence changed))) = .ok after := by
  unfold withSequence
  rw [change_eq_ok]
  constructor
  · rintro ⟨slot, field, current, value, hslot, hvalue, hafter⟩
    match current, hvalue with
    | some (.sequence nested), hvalue =>
      simp only [bind_eq_ok, pure_eq_ok, mapError_eq_ok, Prod.mk.injEq, Prod.exists] at hvalue
      obtain ⟨a', changed, hchanged, rfl, rfl⟩ := hvalue
      exact ⟨slot, field, nested, changed, hslot, hchanged, hafter⟩
  · rintro ⟨slot, field, nested, changed, hslot, hchanged, hafter⟩
    refine ⟨slot, field, _, _, hslot, ?_, hafter⟩
    simp only [bind_eq_ok, pure_eq_ok, mapError_eq_ok, Prod.mk.injEq, Prod.exists]
    exact ⟨a, changed, hchanged, rfl, rfl⟩

/-- The second model is what a commit made of values staged for the type of the first, one for each field if the
first has that many. -/
def CommitsTo (m after : Model) : Prop :=
  ∃ staged, (m.IsAligned → staged.length = m.type.fields.length) ∧ m.type.commit staged = .ok after

theorem CommitsTo.isAligned (h : m.CommitsTo after) (hm : m.IsAligned) : after.IsAligned := by
  obtain ⟨staged, hlength, hcommit⟩ := h
  exact ModelType.isAligned_of_commit (hlength hm) hcommit

theorem CommitsTo.type_eq (h : m.CommitsTo after) : after.type = m.type := by
  obtain ⟨staged, _, hcommit⟩ := h
  exact ModelType.type_of_commit hcommit

theorem commitsTo_change {f : Field → Option FieldValue → Except Error (α × Option FieldValue)} {a : α}
    (h : m.change name f = .ok (a, after)) : m.CommitsTo after := by
  obtain ⟨slot, _, _, value, _, _, hafter⟩ := change_eq_ok.mp h
  exact ⟨m.values.set slot value, fun hm => List.length_set.trans hm, hafter⟩

private theorem commitsTo_map_change
    {f : Field → Option FieldValue → Except Error (α × Option FieldValue)}
    (h : (m.change name f).map (·.2) = .ok after) : m.CommitsTo after := by
  obtain ⟨⟨a, after'⟩, hchange, rfl⟩ := map_eq_ok.mp h
  exact commitsTo_change hchange

theorem commitsTo_set {input : FieldValue} (h : m.set name input = .ok after) : m.CommitsTo after :=
  commitsTo_map_change h

theorem commitsTo_replace {input : FieldValue} (h : m.replace name input = .ok after) :
    m.CommitsTo after :=
  commitsTo_map_change h

theorem commitsTo_unset (h : m.unset name = .ok after) : m.CommitsTo after :=
  commitsTo_map_change h

theorem commitsTo_setData {data : Json} (h : m.setData data = .ok after) : m.CommitsTo after := by
  unfold setData at h
  split at h
  · obtain ⟨staged, hstaged, hafter⟩ := ModelType.build_eq_ok.mp h
    exact ⟨staged, fun _ => length_of_buildFields hstaged, hafter⟩
  · cases h

theorem commitsTo_updateData {data : Json} (h : m.updateData data = .ok after) : m.CommitsTo after := by
  unfold updateData at h
  split at h
  · obtain ⟨staged, hstaged, hafter⟩ := merge_eq_ok.mp h
    exact ⟨staged, fun hm => length_of_mergeFields hm hstaged, hafter⟩
  · cases h

theorem commitsTo_withModel {f : Model → Except Error (α × Model)} {a : α}
    (h : m.withModel name f = .ok (a, after)) : m.CommitsTo after :=
  commitsTo_change h

theorem commitsTo_withSequence {f : Sequence → Except Error (α × Sequence)} {a : α}
    (h : m.withSequence name f = .ok (a, after)) : m.CommitsTo after :=
  commitsTo_change h

variable [Memory]

/-- However deep the place is that the tokens address, the model itself is committed last. -/
theorem commitsTo_edit {pointer : String} {change : Edit} {tokens : List String}
    (h : m.edit pointer change tokens = .ok after) : m.CommitsTo after := by
  have hcarries : change.Carries (fun _ m after => m.CommitsTo after) (fun _ _ _ => True) :=
    { set _ h := commitsTo_set h
      unset _ h := commitsTo_unset h
      assign _ _ _ := trivial
      remove _ _ _ _ := trivial
      withModel h _ := commitsTo_withModel h
      withSequence h _ := commitsTo_withSequence h
      updateAt _ _ _ := trivial }
  exact hcarries.model h

theorem commitsTo_setPointer {pointer : String} {v : Json} (h : m.setPointer pointer v = .ok after) :
    m.CommitsTo after := by
  obtain ⟨tokens, _, hedit⟩ := bind_eq_ok.mp h
  exact commitsTo_edit hedit

theorem commitsTo_unsetPointer {pointer : String} (h : m.unsetPointer pointer = .ok after) :
    m.CommitsTo after := by
  obtain ⟨tokens, _, hedit⟩ := bind_eq_ok.mp h
  exact commitsTo_edit hedit

end Model

namespace Sequence

variable {α : Type} {s after : Sequence}

/-- The second sequence is what a commit made of elements staged for the type of the first. -/
def CommitsTo (s after : Sequence) : Prop := ∃ staged, s.type.commit staged = .ok after

theorem push_eq_ok {inputs : List Element} :
    s.push inputs = .ok after ↔
      ∃ staged, s.type.stageFrom s.size inputs = .ok staged ∧ s.type.commit (s.items ++ staged) = .ok after :=
  bind_eq_ok

theorem append_eq_ok {input : Element} :
    s.append input = .ok after ↔
      ∃ e, s.type.stage input = .ok e ∧ s.type.commit (s.items ++ [some e]) = .ok after := by
  unfold append
  simp only [bind_eq_ok, mapError_eq_ok]

theorem prepend_eq_ok {inputs : List Element} :
    s.prepend inputs = .ok after ↔
      ∃ staged, s.type.stageFrom 0 inputs = .ok staged ∧ s.type.commit (staged ++ s.items) = .ok after :=
  bind_eq_ok

theorem setAt_eq_ok [Memory] {i : Nat} {input : Element} :
    s.setAt i input = .ok after ↔ ¬ (s.size ≤ i ∧ Memory.growthLimit ≤ i) ∧
      ∃ e, s.type.stage input = .ok e ∧
        s.type.commit ((s.items ++ List.replicate (i + 1 - s.size) none).set i (some e)) = .ok after := by
  unfold setAt
  by_cases hlimit : s.size ≤ i ∧ Memory.growthLimit ≤ i
  · rw [if_pos hlimit]
    constructor
    · intro h
      cases h
    · rintro ⟨hn, _⟩
      exact absurd hlimit hn
  · rw [if_neg hlimit]
    simp only [bind_eq_ok, mapError_eq_ok]
    exact ⟨fun h => ⟨hlimit, h⟩, fun h => h.2⟩

/-- Within the length, sums that are cut down are the sums. -/
theorem min_saturatingAdd (length i count : Nat) : min (saturatingAdd length i count) length = min (i + count) length := by
  unfold saturatingAdd
  omega

/-- A splice takes up to `count` elements out from the start on, also where the sum of the two is cut down. -/
theorem spliceAt_eq_removing (s : Sequence) (start count : Nat) (inputs : List Element) :
    s.spliceAt start count inputs = do
      let inserted ← s.type.stageFrom (min start s.size) inputs
      let after ← s.type.commit (s.items.take (min start s.size) ++ inserted ++ (s.items.drop (min start s.size)).drop count)
      return ((s.items.drop (min start s.size)).take count, after) := by
  unfold spliceAt
  dsimp only
  rw [min_saturatingAdd]
  generalize hstart : min start s.size = first
  have hfirst : first ≤ s.items.length := hstart ▸ Nat.min_le_right _ _
  have hdrop : s.items.drop (min (first + count) s.size) = (s.items.drop first).drop count := by
    rw [List.drop_drop, List.drop_eq_drop_iff, size, Nat.min_assoc, Nat.min_self]
  have htake : (s.items.drop first).take (min (first + count) s.size - first) = (s.items.drop first).take count := by
    rw [List.take_eq_take_iff, List.length_drop, size]
    omega
  rw [hdrop, htake]

theorem spliceAt_eq_ok {start count : Nat} {inputs : List Element} {removed : List (Option Element)} :
    s.spliceAt start count inputs = .ok (removed, after) ↔
      removed = (s.items.drop (min start s.size)).take count ∧
      ∃ inserted, s.type.stageFrom (min start s.size) inputs = .ok inserted ∧
        s.type.commit (s.items.take (min start s.size) ++ inserted ++
          (s.items.drop (min start s.size)).drop count) = .ok after := by
  rw [spliceAt_eq_removing]
  simp only [bind_eq_ok, pure_eq_ok, Prod.mk.injEq]
  constructor
  · rintro ⟨inserted, hinserted, after', hafter, rfl, rfl⟩
    exact ⟨rfl, inserted, hinserted, hafter⟩
  · rintro ⟨rfl, inserted, hinserted, hafter⟩
    exact ⟨inserted, hinserted, after, hafter, rfl, rfl⟩

theorem updateAt_eq_ok {i : Nat} {f : Model → Except Error (α × Model)} {a : α} :
    s.updateAt i f = .ok (a, after) ↔
      ∃ nested changed, s.get? i = some (.model nested) ∧ f nested = .ok (a, changed) ∧
        s.type.commit (s.items.set i (some (.model changed))) = .ok after := by
  unfold updateAt
  split
  · rename_i nested hnested
    simp only [bind_eq_ok, pure_eq_ok, mapError_eq_ok, Prod.mk.injEq, Prod.exists]
    constructor
    · rintro ⟨a', changed, hchanged, after', hafter, rfl, rfl⟩
      exact ⟨nested, changed, hnested, hchanged, hafter⟩
    · rintro ⟨nested', changed, hnested', hchanged, hafter⟩
      obtain rfl : nested = nested' := by simpa using hnested.symm.trans hnested'
      exact ⟨a, changed, hchanged, after, hafter, rfl, rfl⟩
  · rename_i hnone
    constructor
    · intro h
      cases h
    · rintro ⟨nested, changed, hnested, _⟩
      exact absurd hnested (hnone nested)

theorem removeLast_eq_ok {removed : Option Element} :
    s.removeLast = .ok (removed, after) ↔
      (s.items = [] ∧ removed = none ∧ after = s) ∨
      (s.items.getLast? = some removed ∧ s.type.commit s.items.dropLast = .ok after) := by
  unfold removeLast
  split
  · rename_i hempty
    have hempty' : s.items = [] := List.getLast?_eq_none_iff.mp hempty
    simp [hempty', eq_comm]
  · rename_i e he
    have hne : s.items ≠ [] := by
      rintro hempty
      simp [hempty] at he
    simp only [bind_eq_ok, pure_eq_ok, Prod.mk.injEq, he, Option.some.injEq, hne, false_and, false_or]
    constructor
    · rintro ⟨after', hafter, rfl, rfl⟩
      exact ⟨rfl, hafter⟩
    · rintro ⟨rfl, hafter⟩
      exact ⟨after, hafter, rfl, rfl⟩

theorem removeFirst_eq_ok {removed : Option Element} :
    s.removeFirst = .ok (removed, after) ↔
      (s.items = [] ∧ removed = none ∧ after = s) ∨
      ∃ rest, s.items = removed :: rest ∧ s.type.commit rest = .ok after := by
  unfold removeFirst
  split
  · rename_i hempty
    simp [hempty, eq_comm]
  · rename_i e rest hitems
    simp only [bind_eq_ok, pure_eq_ok, Prod.mk.injEq, hitems, List.cons.injEq, reduceCtorEq, false_and,
      false_or]
    constructor
    · rintro ⟨after', hafter, rfl, rfl⟩
      exact ⟨rest, ⟨rfl, rfl⟩, hafter⟩
    · rintro ⟨rest', ⟨rfl, rfl⟩, hafter⟩
      exact ⟨after, hafter, rfl, rfl⟩

end Sequence
end SchemaBound
