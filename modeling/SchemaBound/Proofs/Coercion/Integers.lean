import Mathlib.Data.List.TakeWhile
import SchemaBound.Proofs.Coercion.Independence
import SchemaBound.Proofs.Number.Integers

/-! Which texts become integers: those that spell one of at most 64 bits, with white space around it or without, and
no others, whatever else the schema allows. -/
namespace SchemaBound

namespace Text

theorem trim_append {before core after : List Char} (hcore : core ≠ []) (hbefore : ∀ c ∈ before, isBlank c)
    (hshown : ∀ c ∈ core, ¬ isBlank c) (hafter : ∀ c ∈ after, isBlank c) : trim (before ++ core ++ after) = core := by
  have hkeeps {text : List Char} (h : ∀ hl : 0 < text.length, text[0] ∈ core) : text.dropWhile isBlank = text :=
    List.dropWhile_eq_self_iff.mpr fun hl => hshown _ (h hl)
  have hfront : (core ++ after).dropWhile isBlank = core ++ after := by
    obtain ⟨c, rest, rfl⟩ := List.exists_cons_of_ne_nil hcore
    exact hkeeps fun _ => List.mem_cons_self
  have hback : core.reverse.dropWhile isBlank = core.reverse :=
    hkeeps fun hl => List.mem_reverse.mp (List.getElem_mem hl)
  rw [trim, List.append_assoc, List.dropWhile_append_of_pos hbefore, hfront, List.reverse_append,
    List.dropWhile_append_of_pos fun c hc => hafter c (List.mem_reverse.mp hc), hback, List.reverse_reverse]

/-- Trimming takes white space from both ends and nothing else. -/
theorem exists_trim (text : List Char) :
    ∃ before after, text = before ++ trim text ++ after ∧ (∀ c ∈ before, isBlank c) ∧ ∀ c ∈ after, isBlank c := by
  refine ⟨text.takeWhile isBlank, ((text.dropWhile isBlank).reverse.takeWhile isBlank).reverse, ?_, ?_, ?_⟩
  · rw [trim, List.append_assoc, ← List.reverse_append, List.takeWhile_append_dropWhile, List.reverse_reverse,
      List.takeWhile_append_dropWhile]
  · exact fun c hc => List.mem_takeWhile_imp hc
  · exact fun c hc => List.mem_takeWhile_imp (List.mem_reverse.mp hc)

end Text

namespace Number

theorem AreDigits.not_isBlank {digits : List Char} (h : AreDigits digits) : ∀ c ∈ digits, ¬ Text.isBlank c := by
  intro c hc
  obtain ⟨hlow, hhigh⟩ := h.digit c hc
  have hlow' : 48 ≤ c.toNat := hlow
  have hhigh' : c.toNat ≤ 57 := hhigh
  simp [Text.isBlank, Text.blankRanges]
  omega

theorem Spells.ne_nil {text : List Char} {n : Int} (h : Spells text n) : text ≠ [] := by
  cases h with
  | bare hdigits => exact hdigits.ne_nil
  | plus _ => exact List.cons_ne_nil _ _
  | minus _ => exact List.cons_ne_nil _ _

theorem Spells.not_isBlank {text : List Char} {n : Int} (h : Spells text n) : ∀ c ∈ text, ¬ Text.isBlank c := by
  cases h with
  | bare hdigits => exact hdigits.not_isBlank
  | plus hdigits => exact List.forall_mem_cons.mpr ⟨by decide, hdigits.not_isBlank⟩
  | minus hdigits => exact List.forall_mem_cons.mpr ⟨by decide, hdigits.not_isBlank⟩

/-- The text spells the integer between white space, of which there may be none. -/
def SpellsAmidBlanks (text : List Char) (n : Int) : Prop :=
  ∃ before core after, text = before ++ core ++ after ∧ (∀ c ∈ before, Text.isBlank c) ∧
    (∀ c ∈ after, Text.isBlank c) ∧ Spells core n

theorem spells_trim_iff {text : List Char} {n : Int} : Spells (Text.trim text) n ↔ SpellsAmidBlanks text n := by
  constructor
  · intro h
    obtain ⟨before, after, htext, hbefore, hafter⟩ := Text.exists_trim text
    exact ⟨before, Text.trim text, after, htext, hbefore, hafter, h⟩
  · rintro ⟨before, core, after, rfl, hbefore, hafter, h⟩
    rw [Text.trim_append h.ne_nil hbefore h.not_isBlank hafter]
    exact h

/-- The text spells an integer of at most 64 bits, with a sign or without. -/
def SpellsWord (text : List Char) (n : Int) : Prop := SpellsAmidBlanks text n ∧ -2 ^ 63 ≤ n ∧ n ≤ 2 ^ 64 - 1

end Number

namespace Coercion
open Number

variable {node : Json} {name s : String}

theorem ofInteger_trim_eq_some_iff {number : Number} :
    ofInteger? (Text.trim s.toList) = some number ↔ ∃ n, number = .int n ∧ SpellsWord s.toList n := by
  rw [ofInteger_eq_some_iff]
  simp only [SpellsWord, spells_trim_iff]

theorem readWords_trim_eq_some_iff {n : Int} : readWords? (Text.trim s.toList) = some n ↔ SpellsWord s.toList n := by
  have hread : ofInteger? (Text.trim s.toList) = some (.int n) ↔ readWords? (Text.trim s.toList) = some n := by
    simp [ofInteger_eq_readWords, Option.map_eq_some_iff]
  rw [← hread, ofInteger_trim_eq_some_iff]
  simp

theorem exists_float_of_ofDecimal {text : List Char} {number : Number} (h : ofDecimal? text = some number) :
    ∃ x, number = .float x := by
  simp only [ofDecimal?, Option.bind_eq_bind, Option.bind_eq_some_iff] at h
  obtain ⟨_, _, x, _, hx⟩ := h
  exact ⟨x, (Option.some.inj hx).symm⟩

/-- How a text is read as a number: as an integer, and for the type of all numbers as a double where it is none. -/
theorem convert_eq_num_iff {text : List Char} {number : Number} :
    convert? name text = some (.num number) ↔
      name = "integer" ∧ ofInteger? text = some number ∨
        name = "number" ∧ (ofInteger? text = some number ∨ ofInteger? text = none ∧ ofDecimal? text = some number) := by
  have hnum (result : Option Number) : result.map Json.num = some (.num number) ↔ result = some number := by
    simp [Option.map_eq_some_iff]
  unfold convert?
  split_ifs with hinteger hnumber hboolean htrue hfalse
  · subst hinteger
    simp [hnum]
  · subst hnumber
    simp [hnum, Option.or_eq_some_iff]
  all_goals simp [hinteger, hnumber]

theorem convert_eq_int_iff {n : Int} :
    convert? name (Text.trim s.toList) = some (.num (.int n)) ↔
      (name = "integer" ∨ name = "number") ∧ SpellsWord s.toList n := by
  have hint : ofInteger? (Text.trim s.toList) = some (.int n) ↔ SpellsWord s.toList n := by
    simp [ofInteger_trim_eq_some_iff]
  have hdecimal : ofDecimal? (Text.trim s.toList) ≠ some (.int n) := by
    intro h
    obtain ⟨x, hx⟩ := exists_float_of_ofDecimal h
    cases hx
  rw [convert_eq_num_iff, hint]
  simp only [hdecimal, and_false, or_false, or_and_right]

/-- A double is only read for the type of all numbers, and only where the text is no integer. -/
theorem of_convert_eq_float {x : Binary64} (h : convert? name (Text.trim s.toList) = some (.num (.float x))) :
    name = "number" ∧ ¬ ∃ n, SpellsWord s.toList n := by
  have hfloat : ofInteger? (Text.trim s.toList) ≠ some (.float x) := by
    simp [ofInteger_trim_eq_some_iff]
  rcases convert_eq_num_iff.mp h with ⟨_, hinteger⟩ | ⟨hname, hinteger | ⟨hnone, _⟩⟩
  · exact absurd hinteger hfloat
  · exact absurd hinteger hfloat
  · refine ⟨hname, fun ⟨n, hn⟩ => ?_⟩
    have hsome := ofInteger_trim_eq_some_iff.mpr ⟨n, rfl, hn⟩
    cases hnone.symm.trans hsome

/-- A text for which strings are not declared becomes a number exactly if it is read as the number for a declared
type. -/
theorem coercePrimitive_eq_num_iff (htypes : declaredTypes node ≠ []) (hstring : "string" ∉ declaredTypes node)
    {number : Number} :
    coercePrimitive node (.str s) = .num number ↔
      ∃ name ∈ declaredTypes node, convert? name (Text.trim s.toList) = some (.num number) := by
  have hread : ¬ ((declaredTypes node).isEmpty || (declaredTypes node).contains "string") := by
    simp [htypes, hstring]
  unfold coercePrimitive
  dsimp only
  rw [if_neg hread]
  constructor
  · intro h
    cases hfound : (declaredTypes node).findSome? (convert? · (Text.trim s.toList)) with
    | none =>
      rw [hfound] at h
      cases h
    | some v =>
      rw [hfound] at h
      obtain rfl : v = .num number := h
      exact List.exists_of_findSome?_eq_some hfound
  · rintro ⟨name, hname, hconvert⟩
    cases hfound : (declaredTypes node).findSome? (convert? · (Text.trim s.toList)) with
    | none =>
      have hnone := List.findSome?_eq_none_iff.mp hfound name hname
      cases hnone.symm.trans hconvert
    | some v =>
      -- Whichever type comes first, the text means the same for it.
      obtain ⟨first, _, hfirst⟩ := List.exists_of_findSome?_eq_some hfound
      have hmeans : Means s v := ⟨first, hfirst⟩
      have hnumber : Means s (.num number) := ⟨name, hconvert⟩
      exact Option.some.inj (hmeans.spelled.symm.trans hnumber.spelled)

/-- Where a node declares integers or all numbers, and no strings, a text becomes the integer that it spells, if 64
bits hold it, and no other text becomes an integer. These are the integers that two words of 64 bits hold in turn at
every step of the reading. A text becomes a double only where all numbers are declared and it spells no such integer. -/
theorem coercesIntegersExactly (node : Json) (s : String) (hstring : "string" ∉ declaredTypes node)
    (hnumeric : "integer" ∈ declaredTypes node ∨ "number" ∈ declaredTypes node) :
    (∀ n, coercePrimitive node (.str s) = .num (.int n) ↔ SpellsWord s.toList n) ∧
      (∀ n, readWords? (Text.trim s.toList) = some n ↔ SpellsWord s.toList n) ∧
      ∀ x, coercePrimitive node (.str s) = .num (.float x) →
        "number" ∈ declaredTypes node ∧ ¬ ∃ n, SpellsWord s.toList n := by
  have htypes : declaredTypes node ≠ [] := by
    rintro hnil
    simp [hnil] at hnumeric
  refine ⟨fun n => ?_, fun n => readWords_trim_eq_some_iff, fun x hx => ?_⟩
  · rw [coercePrimitive_eq_num_iff htypes hstring]
    simp only [convert_eq_int_iff]
    constructor
    · rintro ⟨_, _, _, hspells⟩
      exact hspells
    · intro hspells
      rcases hnumeric with hinteger | hnumber
      · exact ⟨"integer", hinteger, Or.inl rfl, hspells⟩
      · exact ⟨"number", hnumber, Or.inr rfl, hspells⟩
  · obtain ⟨name, hname, hconvert⟩ := (coercePrimitive_eq_num_iff htypes hstring).mp hx
    obtain ⟨rfl, hnone⟩ := of_convert_eq_float hconvert
    exact ⟨hname, hnone⟩

/-- Zeros in front and white space do not matter to the greatest integer of 64 bits. The next one becomes no
integer at all. -/
theorem coercesIntegersExactly_greatest :
    let node := Json.obj [("type", .arr [.str "boolean", .str "number", .str "null"])]
    "string" ∉ declaredTypes node ∧ ("integer" ∈ declaredTypes node ∨ "number" ∈ declaredTypes node) ∧
      coercePrimitive node (.str "\u00a0+0018446744073709551615 ") = .num (.int (2 ^ 64 - 1)) ∧
      ∀ n, coercePrimitive node (.str "18446744073709551616") ≠ .num (.int n) := by
  intro node
  have hstring : "string" ∉ declaredTypes node := by decide
  have hnumeric : "integer" ∈ declaredTypes node ∨ "number" ∈ declaredTypes node := by decide
  refine ⟨hstring, hnumeric, ?_, fun n h => ?_⟩
  · have hgreatest := coercesIntegersExactly node "\u00a0+0018446744073709551615 " hstring hnumeric
    exact (hgreatest.1 _).mpr ((hgreatest.2.1 _).mp (by decide +kernel))
  · have hnext := coercesIntegersExactly node "18446744073709551616" hstring hnumeric
    have hnone : readWords? (Text.trim "18446744073709551616".toList) = none := by decide +kernel
    cases hnone.symm.trans ((hnext.2.1 n).mpr ((hnext.1 n).mp h))

end Coercion
end SchemaBound
