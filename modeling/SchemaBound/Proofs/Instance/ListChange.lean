import SchemaBound.Proofs.Instance.Projection

/-! Sequences as plain lists: the changes of a list, and that each operation on a sequence commits the elements that
one of them makes. Without conversion the value of the sequence is then the list that the same change makes of the
value before. -/
namespace SchemaBound
open Json Success

/-- A change of a plain list. -/
inductive ListChange (α : Type) where
  | addLast (added : List α)
  | addFirst (added : List α)
  | dropLast
  | dropFirst
  | assign (i : Nat) (a : α)
  /-- Puts elements in the place of up to `count` ones from `start` on. -/
  | splice (start count : Nat) (added : List α)

namespace ListChange

variable {α β : Type}

/-- The list after the change. An assignment past the end leaves the filler at the positions in between. -/
def apply (filler : α) : ListChange α → List α → List α
  | .addLast added, list => list ++ added
  | .addFirst added, list => added ++ list
  | .dropLast, list => list.dropLast
  | .dropFirst, list => list.tail
  | .assign i a, list =>
    (List.range (max list.length (i + 1))).map fun j => if j = i then a else list[j]?.getD filler
  | .splice start count added, list =>
    list.take (min start list.length) ++ added ++ list.drop (min list.length (start + count))

/-- The elements of a list that the change takes out, in their order. -/
def removed : ListChange α → List β → List β
  | .dropLast, list => list.getLast?.toList
  | .dropFirst, list => list.head?.toList
  | .splice start count _, list => (list.take (start + count)).drop start
  | _, _ => []

def map (f : α → β) : ListChange α → ListChange β
  | .addLast added => .addLast (added.map f)
  | .addFirst added => .addFirst (added.map f)
  | .dropLast => .dropLast
  | .dropFirst => .dropFirst
  | .assign i a => .assign i (f a)
  | .splice start count added => .splice start count (added.map f)

/-- Changing the images of elements is taking the images of the changed ones. -/
theorem map_apply (f : α → β) (filler : α) (change : ListChange α) (list : List α) :
    (change.apply filler list).map f = (change.map f).apply (f filler) (list.map f) := by
  cases change with
  | addLast added => simp [apply, map]
  | addFirst added => simp [apply, map]
  | dropLast => simp [apply, map, List.map_dropLast]
  | dropFirst => simp [apply, map, List.map_tail]
  | assign i a =>
    simp only [apply, map, List.map_map, List.length_map]
    refine List.map_congr_left fun j _ => ?_
    by_cases hj : j = i
    · simp [hj]
    · simp [hj, Option.getD_map]
  | splice start count added => simp [apply, map, List.map_take, List.map_drop]

/-- Assigning a position of a list that was filled up to it. -/
theorem assign_eq_set (filler : α) (i : Nat) (a : α) (list : List α) :
    (list ++ List.replicate (i + 1 - list.length) filler).set i a = (assign i a).apply filler list := by
  refine List.ext_getElem? fun j => ?_
  by_cases hbound : j < max list.length (i + 1)
  · rw [apply, List.getElem?_map, List.getElem?_range hbound, Option.map_some]
    by_cases hj : j = i
    · subst hj
      rw [List.getElem?_set_self (by simp; omega), if_pos rfl]
    · rw [List.getElem?_set_ne (Ne.symm hj), if_neg hj]
      by_cases hold : j < list.length
      · rw [List.getElem?_append_left hold, List.getElem?_eq_getElem hold, Option.getD_some]
      · have hnone : list[j]? = none := List.getElem?_eq_none (by omega)
        rw [List.getElem?_append_right (by omega), List.getElem?_replicate, if_pos (by omega), hnone,
          Option.getD_none]
  · rw [List.getElem?_eq_none (by simp; omega), List.getElem?_eq_none (by simp [apply]; omega)]

/-- Putting elements in the place of some of those behind the first ones. -/
theorem splice_eq_append (filler : α) (start count : Nat) (added list : List α) :
    list.take (min start list.length) ++ added ++ (list.drop (min start list.length)).drop count =
      (splice start count added).apply filler list := by
  rw [apply, List.drop_drop]
  congr 1
  by_cases hstart : start ≤ list.length
  · rw [Nat.min_eq_left hstart]
    by_cases hend : start + count ≤ list.length
    · rw [Nat.min_eq_right hend]
    · rw [List.drop_eq_nil_of_le (by omega), List.drop_eq_nil_of_le (by omega)]
  · rw [List.drop_eq_nil_of_le (by omega), List.drop_eq_nil_of_le (by omega)]

theorem removed_splice (start count : Nat) (added : List α) (list : List β) :
    (splice start count added).removed list = (list.drop (min start list.length)).take count := by
  rw [removed]
  by_cases hstart : start ≤ list.length
  · rw [Nat.min_eq_left hstart, List.drop_take]
    congr 1
    omega
  · rw [List.drop_eq_nil_of_le (by simp; omega), List.drop_eq_nil_of_le (by omega), List.take_nil]

end ListChange

/-- The value that stands for a position. -/
def positionJson (item : Option Element) : Json := (item.map Element.toJson).getD .null

theorem listing_eq_map (items : List (Option Element)) : listing items = items.map positionJson := by
  induction items with
  | nil => rfl
  | cons item rest ih => cases item <;> rw [listing, ih] <;> rfl

namespace SequenceType

variable {type : SequenceType}

/-- The value of an input as an element: an instance of the element type stays as it is, and of anything else the
element type takes what it declares. -/
def valueOf (type : SequenceType) : Element → Json
  | .plain v => projectElement type.element v
  | .model m => if type.element.any m.type.same then m.toJson else projectElement type.element m.toJson

theorem toJson_of_stage (hv : type.Throughout Blueprint.IsVerbatim) {input e : Element}
    (h : type.stage input = .ok e) : e.toJson = type.valueOf input := by
  have helement := (throughout_iff.mp hv).2
  cases input with
  | plain v => exact toJson_of_buildElement helement h
  | model m =>
    unfold stage at h
    dsimp only at h
    cases htype : type.element with
    | none =>
      rw [htype] at h
      obtain rfl := Except.ok.inj h
      rw [valueOf, htype, Element.toJson, Option.any_none, if_neg Bool.false_ne_true, projectElement_none]
    | some element =>
      rw [htype] at h helement
      rw [valueOf, htype, Option.any_some]
      dsimp only at h
      by_cases hsame : m.type.same element
      · rw [if_pos hsame] at h
        obtain rfl := Except.ok.inj h
        rw [if_pos hsame, Element.toJson]
      · rw [if_neg hsame] at h
        obtain ⟨made, hmade, rfl⟩ := map_eq_ok.mp h
        rw [m.toJson_eq] at hmade ⊢
        rw [if_neg hsame, Element.toJson, projectElement]
        exact ModelType.toJson_eq_of_build (elementThroughout_some.mp helement) hmade

theorem map_positionJson_of_stageFrom (hv : type.Throughout Blueprint.IsVerbatim) {start : Nat}
    {inputs : List Element} {staged : List (Option Element)} (h : type.stageFrom start inputs = .ok staged) :
    staged.map positionJson = inputs.map type.valueOf := by
  have hall : List.Forall₂ (fun input item => positionJson item = type.valueOf input.1) (inputs.zipIdx start)
      staged := by
    refine (forall₂_of_mapM_eq_ok h).imp fun ⟨input, i⟩ item hitem => ?_
    obtain ⟨e, he, hitem⟩ := bind_eq_ok.mp hitem
    obtain rfl := pure_eq_ok.mp hitem
    exact toJson_of_stage hv (mapError_eq_ok.mp he)
  calc staged.map positionJson
    _ = (inputs.zipIdx start).map fun input => type.valueOf input.1 := map_eq_map_of_forall₂ hall
    _ = ((inputs.zipIdx start).map Prod.fst).map type.valueOf := by
      simp only [List.map_map, Function.comp_def]
    _ = inputs.map type.valueOf := by rw [List.zipIdx_map_fst]

end SequenceType

namespace Sequence

variable {s after : Sequence}

/-- The second sequence is of the same type, and its value is what the change makes of the value of the first. -/
structure ChangesBy (s after : Sequence) (change : ListChange Json) : Prop where
  type_eq : after.type = s.type
  toJson_eq : after.toJson = .arr (change.apply .null (listing s.items))

variable (hv : s.type.Throughout Blueprint.IsVerbatim)
include hv

theorem changesBy_of_commit (change : ListChange (Option Element))
    (h : s.type.commit (change.apply none s.items) = .ok after) : s.ChangesBy after (change.map positionJson) := by
  refine ⟨SequenceType.type_of_commit h, ?_⟩
  rw [SequenceType.toJson_of_commit hv.self h, listing_eq_map, ListChange.map_apply, listing_eq_map]
  rfl

theorem changesBy_of_append {input : Element} (h : s.append input = .ok after) :
    s.ChangesBy after (.addLast [s.type.valueOf input]) := by
  obtain ⟨e, he, hcommit⟩ := append_eq_ok.mp h
  rw [← SequenceType.toJson_of_stage hv he]
  exact changesBy_of_commit hv (.addLast [some e]) hcommit

theorem changesBy_of_push {inputs : List Element} (h : s.push inputs = .ok after) :
    s.ChangesBy after (.addLast (inputs.map s.type.valueOf)) := by
  obtain ⟨staged, hstaged, hcommit⟩ := push_eq_ok.mp h
  rw [← SequenceType.map_positionJson_of_stageFrom hv hstaged]
  exact changesBy_of_commit hv (.addLast staged) hcommit

theorem changesBy_of_prepend {inputs : List Element} (h : s.prepend inputs = .ok after) :
    s.ChangesBy after (.addFirst (inputs.map s.type.valueOf)) := by
  obtain ⟨staged, hstaged, hcommit⟩ := prepend_eq_ok.mp h
  rw [← SequenceType.map_positionJson_of_stageFrom hv hstaged]
  exact changesBy_of_commit hv (.addFirst staged) hcommit

/-- Removing the last element gives it back, if there is one. -/
theorem changesBy_of_removeLast {removed : Option Element} (h : s.removeLast = .ok (removed, after)) :
    s.ChangesBy after .dropLast ∧
      removed = ((.dropLast : ListChange Json).removed s.items).head?.join := by
  rcases removeLast_eq_ok.mp h with ⟨hempty, rfl, rfl⟩ | ⟨hlast, hcommit⟩
  · refine ⟨⟨rfl, ?_⟩, ?_⟩
    · rw [after.toJson_eq, hempty]
      rfl
    · rw [hempty]
      rfl
  · refine ⟨changesBy_of_commit hv .dropLast hcommit, ?_⟩
    rw [ListChange.removed, hlast]
    rfl

theorem changesBy_of_removeFirst {removed : Option Element} (h : s.removeFirst = .ok (removed, after)) :
    s.ChangesBy after .dropFirst ∧
      removed = ((.dropFirst : ListChange Json).removed s.items).head?.join := by
  rcases removeFirst_eq_ok.mp h with ⟨hempty, rfl, rfl⟩ | ⟨rest, hitems, hcommit⟩
  · refine ⟨⟨rfl, ?_⟩, ?_⟩
    · rw [after.toJson_eq, hempty]
      rfl
    · rw [hempty]
      rfl
  · have hrest : (ListChange.dropFirst : ListChange (Option Element)).apply none s.items = rest := by
      rw [ListChange.apply, hitems, List.tail_cons]
    refine ⟨changesBy_of_commit hv .dropFirst (hrest ▸ hcommit), ?_⟩
    rw [ListChange.removed, hitems]
    rfl

theorem changesBy_of_setAt [Memory] {i : Nat} {input : Element} (h : s.setAt i input = .ok after) :
    s.ChangesBy after (.assign i (s.type.valueOf input)) := by
  obtain ⟨_, e, he, hcommit⟩ := setAt_eq_ok.mp h
  rw [size, ListChange.assign_eq_set] at hcommit
  rw [← SequenceType.toJson_of_stage hv he]
  exact changesBy_of_commit hv (.assign i (some e)) hcommit

/-- A splice gives back what it takes out. The positions are clamped to the size, however large they are. -/
theorem changesBy_of_spliceAt {start count : Nat} {inputs : List Element} {removed : List (Option Element)}
    (h : s.spliceAt start count inputs = .ok (removed, after)) :
    s.ChangesBy after (.splice start count (inputs.map s.type.valueOf)) ∧
      removed = (ListChange.splice start count (inputs.map s.type.valueOf)).removed s.items := by
  obtain ⟨rfl, staged, hstaged, hcommit⟩ := spliceAt_eq_ok.mp h
  rw [size, ListChange.splice_eq_append none] at hcommit
  rw [ListChange.removed_splice, ← SequenceType.map_positionJson_of_stageFrom hv hstaged]
  exact ⟨changesBy_of_commit hv (.splice start count staged) hcommit, rfl⟩

/-- A change of an element that is an instance is an assignment of what it becomes. -/
theorem changesBy_of_updateAt {α : Type} {i : Nat} {f : Model → Except Error (α × Model)} {a : α}
    (h : s.updateAt i f = .ok (a, after)) :
    ∃ nested changed, s.get? i = some (.model nested) ∧ f nested = .ok (a, changed) ∧
      s.ChangesBy after (.assign i changed.toJson) := by
  obtain ⟨nested, changed, hnested, hchanged, hcommit⟩ := updateAt_eq_ok.mp h
  have hlt : i < s.items.length := by
    by_contra hge
    rw [get?, List.getElem?_eq_none (by omega)] at hnested
    cases hnested
  have hset : s.items.set i (some (.model changed)) =
      (ListChange.assign i (some (.model changed))).apply none s.items := by
    rw [← ListChange.assign_eq_set, Nat.sub_eq_zero_of_le hlt, List.replicate_zero, List.append_nil]
  rw [hset] at hcommit
  exact ⟨nested, changed, hnested, hchanged, changesBy_of_commit hv (.assign i (some (.model changed))) hcommit⟩

end Sequence
end SchemaBound
