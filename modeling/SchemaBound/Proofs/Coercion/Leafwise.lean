import Mathlib.Tactic.Choose
import Mathlib.Tactic.SplitIfs
import SchemaBound.Coercion
import SchemaBound.Proofs.Json.Leaves

/-! Conversion acts on the texts of a value one by one: what becomes of a text depends on its path and on
nothing beside it. -/
namespace SchemaBound.Coercion
open Json

/-- A text without the blanks around it can be read as the value. -/
def Means (s : String) (v : Json) : Prop := ∃ name, convert? name (Text.trim s.toList) = some v

/-- Every text is kept or becomes something that it means. -/
def IsConversion (reading : Reading) : Prop := ∀ path s, reading path s = .str s ∨ Means s (reading path s)

/-- The function reads the texts of a value, each by its path. -/
def Leafwise (f : Json → Json) : Prop :=
  ∃ reading, IsConversion reading ∧ ∀ v, f v = v.mapText reading

/-- Conversions yield booleans and numbers. -/
theorem Means.bool_or_num {s : String} {v : Json} (h : Means s v) :
    (∃ b, v = .bool b) ∨ ∃ n, v = .num n := by
  obtain ⟨name, h⟩ := h
  unfold convert? at h
  split_ifs at h
  · obtain ⟨n, _, rfl⟩ := Option.map_eq_some_iff.mp h
    exact Or.inr ⟨n, rfl⟩
  · obtain ⟨n, _, rfl⟩ := Option.map_eq_some_iff.mp h
    exact Or.inr ⟨n, rfl⟩
  · exact Or.inl ⟨true, (Option.some.inj h).symm⟩
  · exact Or.inl ⟨false, (Option.some.inj h).symm⟩

theorem Means.isSettled {s : String} {v : Json} (h : Means s v) : v.IsSettled := by
  rcases h.bool_or_num with ⟨b, rfl⟩ | ⟨n, rfl⟩
  · exact isSettled_bool b
  · exact isSettled_num n

theorem IsConversion.settling {reading : Reading} (h : IsConversion reading) : reading.Settling :=
  fun path s => (h path s).imp_right Means.isSettled

theorem IsConversion.below {reading : Reading} (h : IsConversion reading) (step : Step) :
    IsConversion (reading.below step) :=
  fun path s => h (step :: path) s

theorem isConversion_verbatim : IsConversion .verbatim := fun _ _ => Or.inl rfl

theorem IsConversion.andThen {first second : Reading} (h₁ : IsConversion first)
    (h₂ : IsConversion second) : IsConversion (first.andThen second) := by
  intro path s
  unfold Reading.andThen
  rcases h₁ path s with hs | hs
  · rw [hs]
    simpa [mapText] using h₂ path s
  · rw [hs.isSettled]
    exact Or.inr hs

namespace Leafwise

theorem id : Leafwise fun v => v := ⟨.verbatim, isConversion_verbatim, fun v => (mapText_verbatim v).symm⟩

theorem comp {f g : Json → Json} (hf : Leafwise f) (hg : Leafwise g) : Leafwise fun v => g (f v) := by
  obtain ⟨first, h₁, hf⟩ := hf
  obtain ⟨second, h₂, hg⟩ := hg
  refine ⟨first.andThen second, h₁.andThen h₂, fun v => ?_⟩
  calc g (f v) = (v.mapText first).mapText second := by rw [hg, hf]
    _ = v.mapText (first.andThen second) := mapText_mapText first second v

theorem foldl {f : Json → Json → Json} (h : ∀ node, Leafwise (f node)) (nodes : List Json) :
    Leafwise fun v => nodes.foldl (fun v node => f node v) v := by
  induction nodes with
  | nil => exact id
  | cons node rest ih => exact (h node).comp ih

/-- A second pass finds nothing left to convert. -/
theorem idem {f : Json → Json} (h : Leafwise f) (v : Json) : f (f v) = f v := by
  obtain ⟨reading, hr, hf⟩ := h
  rw [hf, hf, mapText_idem hr.settling]

end Leafwise

/-- The reading that knows the text itself and leaves everything inside containers. -/
private def atRoot (f : Json → Json) : Reading
  | [], s => f (.str s)
  | _ :: _, s => .str s

theorem coercePrimitive_text (node : Json) (s : String) :
    coercePrimitive node (.str s) = .str s ∨ Means s (coercePrimitive node (.str s)) := by
  unfold coercePrimitive
  dsimp only
  split_ifs with hstr
  · exact Or.inl rfl
  · cases hv : (declaredTypes node).findSome? (convert? · (Text.trim s.toList)) with
    | none => exact Or.inl rfl
    | some v =>
      obtain ⟨name, _, hname⟩ := List.exists_of_findSome?_eq_some hv
      exact Or.inr ⟨name, hname⟩

theorem leafwise_coercePrimitive (node : Json) : Leafwise (coercePrimitive node) := by
  refine ⟨atRoot (coercePrimitive node), ?_, ?_⟩
  · intro path s
    cases path with
    | nil => exact coercePrimitive_text node s
    | cons step path => exact Or.inl rfl
  · intro v
    cases v with
    | arr items =>
      have hi := mapTextItems_congr (atRoot (coercePrimitive node)) .verbatim
        (fun i => rfl) 0 items
      rw [mapText, hi, mapTextItems_verbatim]
      rfl
    | obj members =>
      have hm := mapTextMembers_congr (atRoot (coercePrimitive node)) .verbatim
        (fun name => rfl) members
      rw [mapText, hm, mapTextMembers_verbatim]
      rfl
    | _ => simp [mapText, atRoot, coercePrimitive]

/-- A part is read by the node for it, if there is one. -/
private def partReading (reading : Json → Reading) : Option Json → Reading
  | some sub => reading sub
  | none => .verbatim

private theorem isConversion_partReading {reading : Json → Reading}
    (h : ∀ node, IsConversion (reading node)) (sub? : Option Json) :
    IsConversion (partReading reading sub?) := by
  cases sub? with
  | none => exact isConversion_verbatim
  | some sub => exact h sub

/-- Texts inside a container are read by the nodes for its parts. -/
private def insideReading (reading : Json → Reading) (node : Json) : Reading
  | [], s => .str s
  | .member name :: path, s => partReading reading (memberNode? node name) path s
  | .item i :: path, s => partReading reading (itemNode? node i) path s

private theorem walkItems_eq {walk : Json → Json → Json} {reading : Json → Reading}
    (hw : ∀ node v, walk node v = v.mapText (reading node)) (node : Json) (index : Nat)
    (items : List Json) :
    walkItems walk node index items = mapTextItems (insideReading reading node) index items := by
  induction items generalizing index with
  | nil => rfl
  | cons v rest ih =>
    rw [walkItems, mapTextItems, ih]
    congr 1
    change _ = v.mapText (partReading reading (itemNode? node index))
    cases itemNode? node index with
    | none => exact (mapText_verbatim v).symm
    | some sub => exact hw sub v

private theorem walkMembers_eq {walk : Json → Json → Json} {reading : Json → Reading}
    (hw : ∀ node v, walk node v = v.mapText (reading node)) (node : Json)
    (members : List (String × Json)) :
    walkMembers walk node members = mapTextMembers (insideReading reading node) members := by
  induction members with
  | nil => rfl
  | cons member rest ih =>
    obtain ⟨name, v⟩ := member
    rw [walkMembers, mapTextMembers, ih]
    congr 2
    change _ = v.mapText (partReading reading (memberNode? node name))
    cases memberNode? node name with
    | none => exact (mapText_verbatim v).symm
    | some sub => exact hw sub v

theorem leafwise_walkInside {walk : Json → Json → Json} (h : ∀ node, Leafwise (walk node)) (node : Json) :
    Leafwise (walkInside walk node) := by
  choose reading hr hw using h
  refine ⟨insideReading reading node, ?_, ?_⟩
  · intro path s
    match path with
    | [] => exact Or.inl rfl
    | .member name :: path => exact isConversion_partReading hr _ path s
    | .item i :: path => exact isConversion_partReading hr _ path s
  · intro v
    cases v with
    | arr items => rw [walkInside, mapText, walkItems_eq hw]
    | obj members => rw [walkInside, mapText, walkMembers_eq hw]
    | _ => simp [mapText, insideReading, walkInside]

/-- Declared types tell arrays from other values, but not from one another. -/
theorem acceptsType_arr (node : Json) (items items' : List Json) :
    acceptsType node (.arr items) = acceptsType node (.arr items') := rfl

theorem acceptsType_obj (node : Json) (members members' : List (String × Json)) :
    acceptsType node (.obj members) = acceptsType node (.obj members') := rfl

section Pick

variable {walk : Json → Json → Json} (resolve : Json → Option Json) (alternatives : List Json)

/-- The alternatives as nodes, references followed. -/
private def nodesOf : List Json := alternatives.filterMap resolve

/-- Where conversion leaves the declared types that accept a value, an alternative is picked by these
types alone. -/
private theorem pick_eq_of_stable {v : Json}
    (h : ∀ node, acceptsType node (walk node v) = acceptsType node v) :
    pick resolve walk v alternatives =
      match (nodesOf resolve alternatives).find? (acceptsType · v) with
      | some node => walk node v
      | none => v := by
  unfold pick nodesOf
  dsimp only
  cases hfind : (alternatives.filterMap resolve).find? (acceptsType · v) with
  | some node => rfl
  | none =>
    have hnone : ((alternatives.filterMap resolve).findSome? fun node =>
        if acceptsType node (walk node v) then some (walk node v) else none) = none := by
      rw [List.findSome?_eq_none_iff]
      intro node hn
      have hrefused := List.find?_eq_none.mp hfind node hn
      rw [h node]
      exact if_neg hrefused
    rw [hnone]

private theorem pick_text (h : ∀ node, Leafwise (walk node)) (s : String) :
    pick resolve walk (.str s) alternatives = .str s ∨
      Means s (pick resolve walk (.str s) alternatives) := by
  have hwalk (node : Json) : walk node (.str s) = .str s ∨ Means s (walk node (.str s)) := by
    obtain ⟨reading, hr, hw⟩ := h node
    rw [hw, mapText]
    exact hr [] s
  unfold pick
  dsimp only
  split
  · exact hwalk _
  · split
    · rename_i candidate hfind
      obtain ⟨node, _, hnode⟩ := List.exists_of_findSome?_eq_some hfind
      split_ifs at hnode
      obtain rfl := Option.some.inj hnode
      exact hwalk node
    · exact Or.inl rfl

/-- Inside a container the alternative counts whose types are the first to accept containers of its
sort. -/
private def chosenReading (reading : Json → Reading) (container : Json) : Reading :=
  partReading reading ((nodesOf resolve alternatives).find? (acceptsType · container))

/-- A text by itself is read by the alternative picked for it. -/
private def pickReading (reading : Json → Reading) (text : String → Json) : Reading
  | [], s => text s
  | .member name :: path, s => chosenReading resolve alternatives reading (.obj []) (.member name :: path) s
  | .item i :: path, s => chosenReading resolve alternatives reading (.arr []) (.item i :: path) s

theorem leafwise_pick (h : ∀ node, Leafwise (walk node)) :
    Leafwise fun v => pick resolve walk v alternatives := by
  have htext := pick_text resolve alternatives h
  choose reading hr hw using h
  have hchosen (container : Json) : IsConversion (chosenReading resolve alternatives reading container) :=
    isConversion_partReading hr _
  refine ⟨pickReading resolve alternatives reading fun s => pick resolve walk (.str s) alternatives, ?_, ?_⟩
  · intro path s
    match path with
    | [] => exact htext s
    | .member name :: path => exact hchosen _ (.member name :: path) s
    | .item i :: path => exact hchosen _ (.item i :: path) s
  · intro v
    cases v with
    | str s => rw [mapText, pickReading]
    | arr items =>
      have hstable (node : Json) :
          acceptsType node (walk node (.arr items)) = acceptsType node (.arr items) := by
        rw [hw, mapText]
        exact acceptsType_arr node _ _
      have hitems := mapTextItems_congr
        (pickReading resolve alternatives reading fun s => pick resolve walk (.str s) alternatives)
        (chosenReading resolve alternatives reading (.arr [])) (fun i => rfl) 0 items
      change pick resolve walk (.arr items) alternatives = _
      rw [pick_eq_of_stable resolve alternatives hstable, mapText, hitems]
      unfold chosenReading
      simp only [acceptsType_arr _ items []]
      split
      · rename_i node hfind
        rw [hfind, hw, mapText, partReading]
      · rename_i hfind
        rw [hfind, partReading, mapTextItems_verbatim]
    | obj members =>
      have hstable (node : Json) :
          acceptsType node (walk node (.obj members)) = acceptsType node (.obj members) := by
        rw [hw, mapText]
        exact acceptsType_obj node _ _
      have hmembers := mapTextMembers_congr
        (pickReading resolve alternatives reading fun s => pick resolve walk (.str s) alternatives)
        (chosenReading resolve alternatives reading (.obj [])) (fun name => rfl) members
      change pick resolve walk (.obj members) alternatives = _
      rw [pick_eq_of_stable resolve alternatives hstable, mapText, hmembers]
      unfold chosenReading
      simp only [acceptsType_obj _ members []]
      split
      · rename_i node hfind
        rw [hfind, hw, mapText, partReading]
      · rename_i hfind
        rw [hfind, partReading, mapTextMembers_verbatim]
    | null | bool b | num n =>
      simp only [mapText]
      rw [pick_eq_of_stable resolve alternatives fun node => by rw [hw]; simp only [mapText]]
      split
      · rw [hw]
        simp only [mapText]
      · rfl

end Pick

theorem leafwise_walk (root : Json) (depth : Nat) : ∀ node, Leafwise (walk root depth node) := by
  induction depth with
  | zero => exact fun _ => Leafwise.id
  | succ depth ih =>
    intro node
    cases hnode : resolve? root maxDepth node with
    | none =>
      have hid : walk root (depth + 1) node = fun v => v := by
        funext v
        simp only [walk, hnode]
      rw [hid]
      exact Leafwise.id
    | some node' =>
      have hcomp : walk root (depth + 1) node = fun v =>
          walkInside (walk root depth) node' (pick (resolve? root maxDepth) (walk root depth)
            (pick (resolve? root maxDepth) (walk root depth)
              ((listed node' "allOf").foldl (fun v sub => walk root depth sub v) (coercePrimitive node' v))
              (listed node' "anyOf")) (listed node' "oneOf")) := by
        funext v
        simp only [walk, hnode]
      have hall := (leafwise_coercePrimitive node').comp (Leafwise.foldl ih (listed node' "allOf"))
      have hany := hall.comp (leafwise_pick (resolve? root maxDepth) (listed node' "anyOf") ih)
      have hone := hany.comp (leafwise_pick (resolve? root maxDepth) (listed node' "oneOf") ih)
      rw [hcomp]
      exact hone.comp (leafwise_walkInside ih node')

/-- Conversion by a document acts on the texts of a value one by one. -/
theorem leafwise_coerce (document : Json) : Leafwise (coerce document) :=
  leafwise_walk document (maxDepth + 1) document

/-- Reading texts keeps names distinct. -/
theorem Leafwise.hasDistinctNames {f : Json → Json} (h : Leafwise f) {v : Json} (hv : v.hasDistinctNames) :
    (f v).hasDistinctNames := by
  obtain ⟨reading, hreading, hf⟩ := h
  rw [hf]
  refine hasDistinctNames_mapText (fun path s => ?_) hv
  rcases hreading path s with hsame | hmeans
  · rw [hsame]
    rfl
  · rcases hmeans.bool_or_num with ⟨b, hb⟩ | ⟨n, hn⟩
    · rw [hb]
      rfl
    · rw [hn]
      rfl

/-- Objects come from objects, member by member. -/
theorem Leafwise.exists_of_eq_obj {f : Json → Json} (h : Leafwise f) {v : Json} {data : List (String × Json)}
    (hv : f v = .obj data) :
    ∃ original, v = .obj original ∧ ∀ name, (data.lookup name).isSome = (original.lookup name).isSome := by
  obtain ⟨reading, hreading, hf⟩ := h
  rw [hf] at hv
  cases v with
  | obj original =>
    rw [mapText] at hv
    obtain rfl := Json.obj.inj hv
    refine ⟨original, rfl, fun name => ?_⟩
    rw [lookup_mapTextMembers, Option.isSome_map]
  | str s =>
    rw [mapText] at hv
    rcases hreading [] s with hsame | hmeans
    · cases hsame.symm.trans hv
    · rcases hmeans.bool_or_num with ⟨b, hb⟩ | ⟨n, hn⟩
      · cases hb.symm.trans hv
      · cases hn.symm.trans hv
  | _ => cases hv

end SchemaBound.Coercion
