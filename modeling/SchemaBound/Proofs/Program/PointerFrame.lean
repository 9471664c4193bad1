import SchemaBound.Proofs.Instance.ListChange
import SchemaBound.Proofs.Program.Arising
import SchemaBound.Proofs.Program.Places

/-! Edits at pointers leave alone all but their targets. Each instance on the way to the target keeps its other
fields or elements where they are, and so do the values of the instances, if nothing is converted. -/
namespace SchemaBound
open Json Success

namespace Json

/-- The member of an object under a name, if there is a value for it. -/
def memberOf (name : String) (v : Option Json) : List (String × Json) := (v.map (name, ·)).toList

theorem append_memberOf_some (before after : List (String × Json)) (name : String) (v : Json) :
    before ++ memberOf name (some v) ++ after = before ++ (name, v) :: after := by
  simp [memberOf]

theorem append_memberOf_none (before after : List (String × Json)) (name : String) :
    before ++ memberOf name none ++ after = before ++ after := by
  simp [memberOf]

/-- The second value is the first with another value for the part that the token addresses, or without that part. Parts
are split off to say so: those before it and those after it stay. -/
inductive DiffersAt (token : String) : Edit → Json → Json → Prop
  | setMember {before after : List (String × Json)} (old : Option Json) (v new : Json) :
      token ∉ before.map Prod.fst → token ∉ after.map Prod.fst →
      DiffersAt token (.set v) (.obj (before ++ memberOf token old ++ after)) (.obj (before ++ (token, new) :: after))
  | unsetMember {before after : List (String × Json)} (old : Option Json) :
      token ∉ before.map Prod.fst → token ∉ after.map Prod.fst →
      DiffersAt token .unset (.obj (before ++ memberOf token old ++ after)) (.obj (before ++ after))
  | setItem {before after : List Json} (old v new : Json) :
      Pointer.index? (before ++ old :: after).length token = some before.length →
      DiffersAt token (.set v) (.arr (before ++ old :: after)) (.arr (before ++ new :: after))
  /-- Nulls fill the positions between the end and the new last item. -/
  | addItem {items : List Json} {i : Nat} (v new : Json) : Pointer.index? items.length token = some i →
      items.length ≤ i →
      DiffersAt token (.set v) (.arr items) (.arr (items ++ List.replicate (i - items.length) .null ++ [new]))
  | removeItem {before after : List Json} (old : Json) :
      Pointer.index? (before ++ old :: after).length token = some before.length →
      DiffersAt token .unset (.arr (before ++ old :: after)) (.arr (before ++ after))

/-- The second value is the first with another value for the part that the tokens lead to, one that is related to the
part before. Each value on the way keeps all of its other parts where they are. -/
inductive DiffersBelow (R : Json → Json → Prop) : List String → Json → Json → Prop
  | here {old new : Json} : R old new → DiffersBelow R [] old new
  | member {name : String} {rest : List String} {before after : List (String × Json)} {old new : Json} :
      name ∉ before.map Prod.fst → name ∉ after.map Prod.fst → DiffersBelow R rest old new →
      DiffersBelow R (name :: rest) (.obj (before ++ (name, old) :: after)) (.obj (before ++ (name, new) :: after))
  | item {token : String} {rest : List String} {before after : List Json} {old new : Json} :
      Pointer.index? (before ++ old :: after).length token = some before.length → DiffersBelow R rest old new →
      DiffersBelow R (token :: rest) (.arr (before ++ old :: after)) (.arr (before ++ new :: after))

end Json

/-- Around the value of a field the values of the others stand as they do without it. -/
theorem snapshot_set {fields : List Field} {values : List (Option FieldValue)} {slot : Nat} {field : Field}
    {current : Option FieldValue} (hn : (fields.map Field.name).Nodup) (hfield : fields[slot]? = some field)
    (hcurrent : values[slot]? = some current) :
    ∃ before after, field.name ∉ before.map Prod.fst ∧ field.name ∉ after.map Prod.fst ∧
      ∀ value, snapshot fields (values.set slot value) =
        before ++ memberOf field.name (value.map FieldValue.toJson) ++ after := by
  induction fields generalizing values slot with
  | nil => cases hfield
  | cons first fields ih =>
    rw [List.map_cons, List.nodup_cons] at hn
    cases values with
    | nil => cases hcurrent
    | cons held values =>
      cases slot with
      | zero =>
        obtain rfl := Option.some.inj hfield
        refine ⟨[], snapshot fields values, List.not_mem_nil, fun hmem => hn.1 ?_, fun value => ?_⟩
        · exact (sublist_names_snapshot fields values).subset hmem
        · cases value <;> simp [snapshot, memberOf]
      | succ slot =>
        obtain ⟨before, after, hbefore, hafter, hsnapshot⟩ := ih hn.2 hfield hcurrent
        have hne : first.name ≠ field.name := fun heq => hn.1 (heq ▸ List.mem_map_of_mem (List.mem_of_getElem? hfield))
        refine ⟨memberOf first.name (held.map FieldValue.toJson) ++ before, after, ?_, hafter, fun value => ?_⟩
        · cases held <;> simp [memberOf, hbefore, hne.symm]
        · rw [List.set_cons_succ]
          cases held <;> simp [snapshot, memberOf, hsnapshot]

/-- A commit of another value for one field changes the member of its name only. -/
theorem Model.toJson_of_commit_set {m after : Model} (hv : (Blueprint.model m.type).IsVerbatim) {name : String}
    {slot : Nat} {field : Field} {current value : Option FieldValue}
    (hslot : m.slotOf? name = some (slot, field, current))
    (h : m.type.commit (m.values.set slot value) = .ok after) :
    ∃ before behind, name ∉ before.map Prod.fst ∧ name ∉ behind.map Prod.fst ∧
      m.toJson = .obj (before ++ memberOf name (current.map FieldValue.toJson) ++ behind) ∧
      after.toJson = .obj (before ++ memberOf name (value.map FieldValue.toJson) ++ behind) := by
  obtain ⟨hfield, hcurrent, rfl⟩ := slotOf?_eq_some hslot
  obtain ⟨before, behind, hbefore, hbehind, hsnapshot⟩ := snapshot_set hv.names hfield hcurrent
  have hsame : m.values.set slot current = m.values := by
    obtain ⟨hlt, rfl⟩ := List.getElem?_eq_some_iff.mp hcurrent
    exact List.set_getElem_self hlt
  refine ⟨before, behind, hbefore, hbehind, ?_, ?_⟩
  · rw [m.toJson_eq, ← hsnapshot, hsame]
  · rw [ModelType.toJson_of_commit hv h, hsnapshot]

namespace ListChange

variable {α : Type} {filler a : α} {list : List α} {i : Nat}

theorem assign_of_lt (h : i < list.length) : (assign i a).apply filler list = list.set i a := by
  rw [← assign_eq_set, Nat.sub_eq_zero_of_le h, List.replicate_zero, List.append_nil]

theorem assign_of_le (h : list.length ≤ i) :
    (assign i a).apply filler list = list ++ List.replicate (i - list.length) filler ++ [a] := by
  have hlength : i + 1 - list.length = i - list.length + 1 := by omega
  rw [← assign_eq_set, hlength, List.replicate_succ', ← List.append_assoc,
    List.set_append_right _ _ (by simp; omega)]
  simp [h]

theorem splice_one (h : i < list.length) : (splice i 1 []).apply filler list = list.eraseIdx i := by
  rw [apply, Nat.min_eq_left (Nat.le_of_lt h), Nat.min_eq_right h, List.append_nil, List.eraseIdx_eq_take_drop_succ]

end ListChange

namespace Json

variable {token : String} {items : List Json} {i : Nat}

theorem DiffersAt.assign (v new : Json) (hi : Pointer.index? items.length token = some i) :
    DiffersAt token (.set v) (.arr items) (.arr ((ListChange.assign i new).apply .null items)) := by
  by_cases hlt : i < items.length
  · obtain ⟨before, behind, hitems, rfl, hset⟩ := @List.exists_of_set _ _ new _ hlt
    rw [ListChange.assign_of_lt hlt, hset]
    rw [hitems] at hi ⊢
    exact .setItem _ v new hi
  · rw [ListChange.assign_of_le (Nat.not_lt.mp hlt)]
    exact .addItem v new hi (Nat.not_lt.mp hlt)

theorem DiffersAt.remove (hi : Pointer.index? items.length token = some i) (hlt : i < items.length) :
    DiffersAt token .unset (.arr items) (.arr ((ListChange.splice i 1 []).apply .null items)) := by
  obtain ⟨before, behind, hitems, rfl, _⟩ := @List.exists_of_set _ _ .null _ hlt
  rw [ListChange.splice_one hlt]
  rw [hitems] at hi ⊢
  rw [List.eraseIdx_append_of_length_le (Nat.le_refl _), Nat.sub_self, List.eraseIdx_cons_zero]
  exact .removeItem _ hi

theorem DiffersBelow.set {R : Json → Json → Prop} {rest : List String} {old new : Json}
    (hi : Pointer.index? items.length token = some i) (hold : items[i]? = some old) (h : DiffersBelow R rest old new) :
    DiffersBelow R (token :: rest) (.arr items) (.arr (items.set i new)) := by
  obtain ⟨hlt, rfl⟩ := List.getElem?_eq_some_iff.mp hold
  obtain ⟨before, behind, hitems, rfl, hset⟩ := @List.exists_of_set _ _ new _ hlt
  rw [hset]
  rw [hitems] at hi
  have hdiffers := DiffersBelow.item hi h
  rwa [← hitems] at hdiffers

end Json

theorem length_listing (items : List (Option Element)) : (listing items).length = items.length := by
  rw [listing_eq_map, List.length_map]

theorem listing_set (items : List (Option Element)) (i : Nat) (item : Option Element) :
    listing (items.set i item) = (listing items).set i (positionJson item) := by
  rw [listing_eq_map, listing_eq_map, List.map_set]

namespace Instance

variable {i held changed after : Instance} {token : String} {change : Edit}

/-- Without conversion what is written to the target is all that differs in the instance that holds the target. -/
theorem Writes.differsAt [Memory] (h : i.Writes change token after) (ho : i.Obeys (.shaped Blueprint.IsVerbatim)) :
    i.toJson.DiffersAt token change after.toJson := by
  cases h with
  | set h =>
    have hv := Blueprint.Throughout.self (Model.obeys_iff.mp ho).1
    obtain ⟨slot, field, current, stored, hslot, _, hcommit⟩ := Model.set_eq_ok.mp h
    obtain ⟨before, behind, hbefore, hbehind, hold, hnew⟩ := Model.toJson_of_commit_set hv hslot hcommit
    rw [toJson, toJson, hold, hnew, Option.map_some, append_memberOf_some]
    exact .setMember _ _ _ hbefore hbehind
  | unset h =>
    have hv := Blueprint.Throughout.self (Model.obeys_iff.mp ho).1
    obtain ⟨slot, field, current, hslot, hcommit⟩ := Model.unset_eq_ok.mp h
    obtain ⟨before, behind, hbefore, hbehind, hold, hnew⟩ := Model.toJson_of_commit_set hv hslot hcommit
    rw [toJson, toJson, hold, hnew, Option.map_none, append_memberOf_none]
    exact .unsetMember _ hbefore hbehind
  | @assign s _ _ _ v hi h =>
    have hchanges := Sequence.changesBy_of_setAt (Sequence.obeys_iff.mp ho).1 h
    rw [toJson, toJson, s.toJson_eq, hchanges.toJson_eq]
    exact .assign v _ ((length_listing s.items).symm ▸ hi)
  | @remove s _ _ _ _ hi hlt h =>
    have hchanges := (Sequence.changesBy_of_spliceAt (Sequence.obeys_iff.mp ho).1 h).1
    have hlength := length_listing s.items
    rw [toJson, toJson, s.toJson_eq, hchanges.toJson_eq]
    exact .remove (hlength.symm ▸ hi) (hlength.symm ▸ hlt)

theorem Exchanges.differsBelow (h : i.Exchanges token held changed after) (ho : i.Obeys (.shaped Blueprint.IsVerbatim))
    {R : Json → Json → Prop} {rest : List String} (hrest : held.toJson.DiffersBelow R rest changed.toJson) :
    i.toJson.DiffersBelow R (token :: rest) after.toJson := by
  cases h with
  | field hslot hcommit =>
    have hv := Blueprint.Throughout.self (Model.obeys_iff.mp ho).1
    obtain ⟨before, behind, hbefore, hbehind, hold, hnew⟩ := Model.toJson_of_commit_set hv hslot hcommit
    rw [toJson, toJson, hold, hnew, Option.map_some, Option.map_some, append_memberOf_some, append_memberOf_some,
      toJson_toFieldValue, toJson_toFieldValue]
    exact .member hbefore hbehind hrest
  | @element s _ _ k held changed hi hget hcommit =>
    have hv := Sequence.obeys_iff.mp ho
    have hitem : (listing s.items)[k]? = some held.toJson := by
      rw [getElem?_listing, Option.join_eq_some_iff.mp hget]
      rfl
    rw [toJson, toJson, s.toJson_eq, SequenceType.toJson_of_commit hv.1.self hcommit, listing_set]
    exact .set ((length_listing s.items).symm ▸ hi) hitem hrest

/-- Without conversion all that differs is the value of the instance that is exchanged. -/
theorem ExchangesBelow.differsBelow {R : Json → Json → Prop} {way : List String}
    (h : ExchangesBelow held changed way i after) (ho : i.Obeys (.shaped Blueprint.IsVerbatim))
    (hr : R held.toJson changed.toJson) : i.toJson.DiffersBelow R way after.toJson := by
  induction h with
  | here => exact .here hr
  | inside hexchanges _ ih => exact hexchanges.differsBelow ho (ih (hexchanges.obeys ho))

end Instance

/-- Sets or unsets what a pointer addresses. -/
def Model.editAt [Memory] (m : Model) (pointer : String) : Edit → Except Error Model
  | .set v => m.setPointer pointer v
  | .unset => m.unsetPointer pointer

theorem Model.edits_of_editAt [Memory] {m after : Model} {pointer : String} {change : Edit}
    (h : m.editAt pointer change = .ok after) :
    ∃ tokens, Pointer.target pointer = .ok tokens ∧ Instance.Edits change tokens (.model m) (.model after) := by
  cases change with
  | set v | unset =>
    obtain ⟨tokens, htokens, hedit⟩ := bind_eq_ok.mp h
    exact ⟨tokens, htokens, (Instance.carries_edits _).model hedit⟩

/-- An edit at a pointer writes to the instance that holds the target as the operation on fields or on elements does,
and the values of the models differ in nothing but the target. -/
def Model.DiffersAtTarget [Memory] (m : Model) (pointer : String) (change : Edit) (after : Model) : Prop :=
  ∃ way last held changed, Pointer.target pointer = .ok (way ++ [last]) ∧
    (Instance.model m).inner? way = some held ∧ (Instance.model after).inner? way = some changed ∧
    held.Writes change last changed ∧
    m.toJson.DiffersBelow
      (fun old new => old = held.toJson ∧ new = changed.toJson ∧ old.DiffersAt last change new) way after.toJson

/-- Under engines that give back what they accept, edits at pointers touch nothing but their targets, however deep these
are and whichever tokens lead there. -/
theorem Arises.editAt_differsAtTarget [Memory] {m after : Model} (h : Arises Engine.IsVerbatim (.model m))
    {pointer : String}
    {change : Edit} (hedit : m.editAt pointer change = .ok after) : m.DiffersAtTarget pointer change after := by
  obtain ⟨_, htarget, way, last, held, changed, rfl, hwrites, hexchanges⟩ := Model.edits_of_editAt hedit
  have hobeys := h.isVerbatim
  have hdiffers := hwrites.differsAt (hexchanges.obeys hobeys)
  exact ⟨way, last, held, changed, htarget, hexchanges.inner?, hexchanges.inner?_after, hwrites,
    hexchanges.differsBelow hobeys ⟨rfl, rfl, hdiffers⟩⟩

section Samples

/-- Objects in an array. -/
def rowsOfObjects : Schema := ⟨.obj [
  ("type", .str "object"),
  ("properties", .obj [("rows", .obj [
    ("type", .str "array"),
    ("items", .obj [
      ("type", .str "object"),
      ("properties", .obj [("x", .obj []), ("y", .obj [])])])])])]⟩

theorem editAt_differsAtTarget_row : ∃ m after, Arises Engine.IsVerbatim (.model m) ∧
    m.editAt "/rows/1/y" (.set (.str "b")) = .ok after ∧ m.DiffersAtTarget "/rows/1/y" (.set (.str "b")) after := by
  have hrun : yields (rowsOfObjects.compileModel 0 Engine.draft7 .strict) fun type =>
      yields (type.create (.obj [("rows", .arr [.obj [("x", .null)], .obj [("x", .str "a")]])])) fun m =>
        yields (m.editAt "/rows/1/y" (.set (.str "b"))) fun _ => true := by
    decide +kernel
  obtain ⟨type, htype, hrun⟩ := exists_of_yields hrun
  obtain ⟨m, hm, hrun⟩ := exists_of_yields hrun
  obtain ⟨after, hafter, _⟩ := exists_of_yields hrun
  have harises : Arises Engine.IsVerbatim (.model m) :=
    .of_create (by decide) (Engine.isVerbatim_draft7 rfl) htype hm
  exact ⟨m, after, harises, hafter, harises.editAt_differsAtTarget hafter⟩

end Samples
end SchemaBound
