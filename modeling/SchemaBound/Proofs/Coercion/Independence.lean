import SchemaBound.Proofs.Coercion.Leafwise
import SchemaBound.Proofs.Json.Address

/-! Conversion leaf by leaf. It keeps all of a value but its texts, and each of these becomes nothing but what it
spells. A second conversion changes nothing, and what becomes of a text depends on the sorts of the containers around
it and on nothing beside it. -/
namespace SchemaBound

namespace Json

mutual
/-- The same value but for its texts, each of which has become something that it may become. -/
inductive SameButTexts (may : String → Json → Prop) : Json → Json → Prop
  | null : SameButTexts may .null .null
  | bool (b : Bool) : SameButTexts may (.bool b) (.bool b)
  | num (n : Number) : SameButTexts may (.num n) (.num n)
  | str {s : String} {v : Json} : may s v → SameButTexts may (.str s) v
  | arr {items items' : List Json} : ItemsSameButTexts may items items' → SameButTexts may (.arr items) (.arr items')
  | obj {members members' : List (String × Json)} : MembersSameButTexts may members members' →
      SameButTexts may (.obj members) (.obj members')

/-- As many items, the same one by one but for their texts. -/
inductive ItemsSameButTexts (may : String → Json → Prop) : List Json → List Json → Prop
  | nil : ItemsSameButTexts may [] []
  | cons {v w : Json} {rest rest' : List Json} : SameButTexts may v w → ItemsSameButTexts may rest rest' →
      ItemsSameButTexts may (v :: rest) (w :: rest')

/-- The same names in the same order, with values that are the same but for their texts. -/
inductive MembersSameButTexts (may : String → Json → Prop) : List (String × Json) → List (String × Json) → Prop
  | nil : MembersSameButTexts may [] []
  | cons {name : String} {v w : Json} {rest rest' : List (String × Json)} : SameButTexts may v w →
      MembersSameButTexts may rest rest' → MembersSameButTexts may ((name, v) :: rest) ((name, w) :: rest')
end

section Reading

variable {may : String → Json → Prop}

mutual
/-- A reading changes nothing but texts. -/
theorem sameButTexts_mapText : ∀ {reading : Reading}, (∀ path s, may s (reading path s)) → ∀ v : Json,
    SameButTexts may v (v.mapText reading)
  | _, _, .null => by simpa [mapText] using SameButTexts.null
  | _, _, .bool b => by simpa [mapText] using SameButTexts.bool b
  | _, _, .num n => by simpa [mapText] using SameButTexts.num n
  | reading, h, .str s => by
    rw [mapText]
    exact .str (h [] s)
  | reading, h, .arr items => by
    rw [mapText]
    exact .arr (itemsSameButTexts_mapText h 0 items)
  | reading, h, .obj members => by
    rw [mapText]
    exact .obj (membersSameButTexts_mapText h members)

theorem itemsSameButTexts_mapText : ∀ {reading : Reading}, (∀ path s, may s (reading path s)) →
    ∀ (index : Nat) (items : List Json), ItemsSameButTexts may items (mapTextItems reading index items)
  | _, _, _, [] => .nil
  | _, h, index, v :: rest =>
    .cons (sameButTexts_mapText (fun path s => h (.item index :: path) s) v)
      (itemsSameButTexts_mapText h (index + 1) rest)

theorem membersSameButTexts_mapText : ∀ {reading : Reading}, (∀ path s, may s (reading path s)) →
    ∀ members : List (String × Json), MembersSameButTexts may members (mapTextMembers reading members)
  | _, _, [] => .nil
  | _, h, (name, v) :: rest =>
    .cons (sameButTexts_mapText (fun path s => h (.member name :: path) s) v) (membersSameButTexts_mapText h rest)
end

end Reading

/-- Both are arrays, or both are objects. -/
def AreContainersAlike (v w : Json) : Prop := (v.isArray ∧ w.isArray) ∨ (v.isObject ∧ w.isObject)

/-- The tokens lead through containers of the same sorts to the same value. -/
structure LeadAlike (tokens : List String) (v w : Json) : Prop where
  containers : ∀ way, way <+: tokens → way ≠ tokens →
    ∃ x y, v.follow? way = some x ∧ w.follow? way = some y ∧ x.AreContainersAlike y
  ending : ∃ x, v.follow? tokens = some x ∧ w.follow? tokens = some x

namespace LeadAlike

variable {token : String} {rest : List String} {v w v' w' : Json}

theorem areContainersAlike (h : LeadAlike (token :: rest) v w) : v.AreContainersAlike w := by
  obtain ⟨x, y, hx, hy, halike⟩ := h.containers [] (List.nil_prefix) (by simp)
  obtain rfl := Option.some.inj hx
  obtain rfl := Option.some.inj hy
  exact halike

/-- From the parts that the first token names, the others lead alike. -/
theorem childAt (h : LeadAlike (token :: rest) v w) :
    ∃ v' w', v.childAt? token = some v' ∧ w.childAt? token = some w' ∧ LeadAlike rest v' w' := by
  obtain ⟨x, hv, hw⟩ := h.ending
  obtain ⟨v', hv', hv⟩ := Option.bind_eq_some_iff.mp hv
  obtain ⟨w', hw', hw⟩ := Option.bind_eq_some_iff.mp hw
  refine ⟨v', w', hv', hw', fun way hprefix hne => ?_, x, hv, hw⟩
  have halike := h.containers (token :: way) (List.cons_prefix_cons.mpr ⟨rfl, hprefix⟩) (by simpa using hne)
  simpa only [follow?, hv', hw', Option.bind_some] using halike

end LeadAlike

/-- A part of a container is read by one reading, whatever stands beside it. -/
theorem exists_childAt_mapText {v w : Json} (h : v.AreContainersAlike w) (reading : Reading) (token : String) :
    ∃ inner : Reading, (v.mapText reading).childAt? token = (v.childAt? token).map (mapText inner) ∧
      (w.mapText reading).childAt? token = (w.childAt? token).map (mapText inner) := by
  have hitems (i : Nat) (items : List Json) : (mapTextItems reading 0 items)[i]? =
      items[i]?.map (mapText (reading.below (.item i))) := by
    rw [getElem?_mapTextItems, Nat.zero_add]
  rcases h with ⟨hv, hw⟩ | ⟨hv, hw⟩
  · cases v <;> cases hv
    cases w <;> cases hw
    simp only [mapText, childAt?]
    cases Pointer.readIndex? token with
    | none => exact ⟨reading, rfl, rfl⟩
    | some i => exact ⟨reading.below (.item i), hitems i _, hitems i _⟩
  · cases v <;> cases hv
    cases w <;> cases hw
    simp only [mapText, childAt?]
    exact ⟨reading.below (.member token), lookup_mapTextMembers reading token _, lookup_mapTextMembers reading token _⟩

/-- What a reading makes of the value at the end of a way depends on the sorts of the containers on the way, and on
nothing else in them. -/
theorem exists_follow_mapText {tokens : List String} {v w : Json} (h : LeadAlike tokens v w) (reading : Reading) :
    ∃ x, (v.mapText reading).follow? tokens = some x ∧ (w.mapText reading).follow? tokens = some x := by
  induction tokens generalizing v w reading with
  | nil =>
    obtain ⟨x, hv, hw⟩ := h.ending
    obtain rfl := Option.some.inj hv
    obtain rfl := Option.some.inj hw
    exact ⟨_, rfl, rfl⟩
  | cons token rest ih =>
    obtain ⟨v', w', hv, hw, hrest⟩ := h.childAt
    obtain ⟨inner, hinnerv, hinnerw⟩ := exists_childAt_mapText h.areContainersAlike reading token
    obtain ⟨x, hxv, hxw⟩ := ih hrest inner
    refine ⟨x, ?_, ?_⟩
    · rw [follow?, hinnerv, hv]
      exact hxv
    · rw [follow?, hinnerw, hw]
      exact hxw

end Json

namespace Coercion
open Json

/-- The boolean that a text spells, or else the number, without the blanks around it. -/
def spelled? (s : String) : Option Json :=
  let text := Text.trim s.toList
  if text = "true".toList then some (.bool true)
  else if text = "false".toList then some (.bool false)
  else ((Number.ofInteger? text).or (Number.ofDecimal? text)).map .num

/-- The words for booleans spell no numbers, so whatever the types are that the text is read for, it is read as the same
value. -/
theorem Means.spelled {s : String} {v : Json} (h : Means s v) : spelled? s = some v := by
  obtain ⟨name, h⟩ := h
  unfold spelled?
  generalize Text.trim s.toList = text at h
  have hwords : ∀ word ∈ ["true", "false"],
      (Number.ofInteger? word.toList).or (Number.ofDecimal? word.toList) = none := by decide
  have hnumber (h : ((Number.ofInteger? text).or (Number.ofDecimal? text)).map .num = some v) :
      text ≠ "true".toList ∧ text ≠ "false".toList := by
    constructor
    · rintro rfl
      rw [hwords "true" (by simp)] at h
      cases h
    · rintro rfl
      rw [hwords "false" (by simp)] at h
      cases h
  have hdecimal (h : (Number.ofInteger? text).map .num = some v) :
      ((Number.ofInteger? text).or (Number.ofDecimal? text)).map .num = some v := by
    obtain ⟨n, hn, rfl⟩ := Option.map_eq_some_iff.mp h
    rw [hn]
    rfl
  unfold convert? at h
  split_ifs at h with hinteger hnum hboolean htrue hfalse
  · have hv := hdecimal h
    simp only [if_neg (hnumber hv).1, if_neg (hnumber hv).2, hv]
  · simp only [if_neg (hnumber h).1, if_neg (hnumber h).2, h]
  · subst htrue
    exact h
  · subst hfalse
    exact h

/-- Every text is kept, or becomes the boolean or the number that it spells. -/
def MayBecome (s : String) (v : Json) : Prop := v = .str s ∨ spelled? s = some v

/-- What becomes of a value becomes of its leaves, one by one. -/
structure IsLeafByLeaf (f : Json → Json) : Prop where
  sameButTexts : ∀ v, SameButTexts MayBecome v (f v)
  /-- Two values that have containers of the same sorts above a place and the same value there. -/
  independent : ∀ {pointer tokens v w}, Pointer.path? pointer = some tokens → LeadAlike tokens v w →
    ∃ x, (f v).pointer? pointer = some x ∧ (f w).pointer? pointer = some x

theorem Leafwise.isLeafByLeaf {f : Json → Json} (h : Leafwise f) : IsLeafByLeaf f := by
  obtain ⟨reading, hreading, hf⟩ := h
  refine ⟨fun v => ?_, fun hpath halike => ?_⟩
  · rw [hf]
    exact sameButTexts_mapText (fun path s => (hreading path s).imp_right Means.spelled) v
  · rw [hf, hf, pointer?_eq, pointer?_eq, hpath]
    exact exists_follow_mapText halike reading

/-- Conversion by any document acts leaf by leaf, however its nodes refer to and combine one another. -/
theorem coerce_isLeafByLeaf (document : Json) : IsLeafByLeaf (coerce document) :=
  (leafwise_coerce document).isLeafByLeaf

/-- Converting once more changes nothing. -/
theorem coerce_coerce (document v : Json) : coerce document (coerce document v) = coerce document v :=
  (leafwise_coerce document).idem v

/-- A text becomes another alternative's number, and stays one in the next pass, where that alternative is the first one
of its type. -/
example :
    let document := Json.obj [("anyOf", .arr [.obj [("type", .str "boolean")], .obj [("type", .str "number")]])]
    coerce document (.str " 12 ") = .num (.int 12) ∧ coerce document (.num (.int 12)) = .num (.int 12) := by
  decide +kernel

end Coercion
end SchemaBound
