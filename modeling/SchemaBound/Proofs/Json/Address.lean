import Mathlib.Data.List.Basic
import SchemaBound.Json.Pointer

/-! What a pointer addresses, as a function of its text. In a pointer that reads, indices are below
`2 ^ 64`; a pointer made on the way to a node may have any index. -/
namespace SchemaBound

namespace Text

variable {separator : Char}

theorem pieces_ne_nil (separator : Char) (text : List Char) : pieces separator text ≠ [] := by
  cases text with
  | nil => simp [pieces]
  | cons c rest =>
    rw [pieces]
    split
    · simp
    · split <;> simp

theorem pieces_of_not_mem {text : List Char} (h : separator ∉ text) : pieces separator text = [text] := by
  induction text with
  | nil => rfl
  | cons c rest ih =>
    rw [List.mem_cons, not_or] at h
    rw [pieces, if_neg (Ne.symm h.1), ih h.2]

theorem pieces_append (before after : List Char) :
    pieces separator (before ++ separator :: after) = pieces separator before ++ pieces separator after := by
  induction before with
  | nil => simp [pieces]
  | cons c rest ih =>
    rw [List.cons_append, pieces, pieces, ih]
    by_cases hc : c = separator
    · rw [if_pos hc, if_pos hc, List.cons_append]
    · rw [if_neg hc, if_neg hc]
      obtain ⟨piece, others, hp⟩ := List.exists_cons_of_ne_nil (pieces_ne_nil separator rest)
      rw [hp]
      rfl

end Text

namespace Pointer

theorem slash_not_mem_escapeChars (token : List Char) : '/' ∉ escapeChars token := by
  induction token with
  | nil => exact List.not_mem_nil
  | cons c rest ih =>
    rw [escapeChars]
    split_ifs with htilde hslash
    · simp [ih]
    · simp [ih]
    · rw [List.mem_cons, not_or]
      exact ⟨Ne.symm hslash, ih⟩

theorem unescapeChars_escapeChars (token : List Char) : unescapeChars (escapeChars token) = token := by
  induction token with
  | nil => rfl
  | cons c rest ih =>
    rw [escapeChars]
    split_ifs with htilde hslash
    · rw [unescapeChars, ih, htilde]
    · rw [unescapeChars, ih, hslash]
    · rw [unescapeChars.eq_4, ih]
      · intro rest' hc
        exact absurd hc htilde
      · intro rest' hc
        exact absurd hc htilde

theorem unescapeChars_of_not_mem {text : List Char} (h : '~' ∉ text) : unescapeChars text = text := by
  induction text with
  | nil => rfl
  | cons c rest ih =>
    rw [List.mem_cons, not_or] at h
    rw [unescapeChars.eq_4, ih h.2]
    · intro rest' hc
      exact absurd hc.symm h.1
    · intro rest' hc
      exact absurd hc.symm h.1

theorem escapeChars_of_not_mem {text : List Char} (hslash : '/' ∉ text) (htilde : '~' ∉ text) :
    escapeChars text = text := by
  induction text with
  | nil => rfl
  | cons c rest ih =>
    rw [List.mem_cons, not_or] at hslash htilde
    rw [escapeChars, if_neg (Ne.symm htilde.1), if_neg (Ne.symm hslash.1), ih hslash.2 htilde.2]

theorem toList_ofTokens_cons (token : String) (rest : List String) :
    (ofTokens (token :: rest)).toList = '/' :: (escapeChars token.toList ++ (ofTokens rest).toList) := by
  simp [ofTokens, child, escape]

/-- A pointer made of tokens has the written forms of the tokens between its slashes. -/
theorem pieces_ofTokens (token : String) (rest : List String) :
    Text.pieces '/' (escapeChars token.toList ++ (ofTokens rest).toList) =
      (token :: rest).map fun token => escapeChars token.toList := by
  induction rest generalizing token with
  | nil =>
    rw [ofTokens, String.toList_empty, List.append_nil, Text.pieces_of_not_mem (slash_not_mem_escapeChars _)]
    rfl
  | cons next rest ih =>
    rw [toList_ofTokens_cons, Text.pieces_append, Text.pieces_of_not_mem (slash_not_mem_escapeChars _), ih]
    rfl

/-- The tokens of a pointer that is made of tokens are these. -/
theorem tokens_ofTokens {tokens : List String} (h : tokens ≠ []) : tokens? (ofTokens tokens) = some tokens := by
  cases tokens with
  | nil => exact absurd rfl h
  | cons token rest =>
    rw [tokens?, toList_ofTokens_cons]
    change some ((Text.pieces '/' _).map _) = _
    rw [pieces_ofTokens, List.map_map]
    simp [Function.comp_def, unescapeChars_escapeChars]

/-- A pointer made of tokens may be put before another one. -/
theorem tokens_ofTokens_append {tokens inner : List String} (h : tokens ≠ []) {pointer : String}
    (hinner : tokens? pointer = some inner) : tokens? (ofTokens tokens ++ pointer) = some (tokens ++ inner) := by
  obtain ⟨token, rest, rfl⟩ := List.exists_cons_of_ne_nil h
  unfold tokens? at hinner
  split at hinner
  · rename_i chars hchars
    rw [tokens?, String.toList_append, toList_ofTokens_cons, hchars, List.cons_append]
    change some ((Text.pieces '/' _).map _) = _
    rw [Text.pieces_append, pieces_ofTokens, List.map_append, Option.some.inj hinner, List.map_map]
    simp [Function.comp_def, unescapeChars_escapeChars]
  · cases hinner

/-- The text is a way to write the token in a pointer. -/
structure Writes (text token : String) : Prop where
  noSlash : '/' ∉ text.toList
  reads : unescapeChars text.toList = token.toList

theorem writes_escape (token : String) : Writes (escape token) token := by
  have htext : (escape token).toList = escapeChars token.toList := String.toList_ofList
  refine ⟨?_, ?_⟩
  · rw [htext]
    exact slash_not_mem_escapeChars _
  · rw [htext, unescapeChars_escapeChars]

theorem writes_of_not_mem {text : String} (hslash : '/' ∉ text.toList) (htilde : '~' ∉ text.toList) :
    Writes text text :=
  ⟨hslash, unescapeChars_of_not_mem htilde⟩

/-- A token read as a decimal number of any size. -/
def position? (token : String) : Option Nat :=
  if token.toList ≠ [] ∧ token.toList.all Number.isDigit then some (Number.digitsValue token.toList) else none

/-- An array index of any size: decimal digits without sign or leading zeros. -/
def ordinal? (token : String) : Option Nat :=
  let digits := token.toList
  if digits = [] ∨ ¬ digits.all Number.isDigit ∨ (digits.length > 1 ∧ digits.head? = some '0') then none
  else some (Number.digitsValue digits)

/-- In a pointer that reads, indices are bounded. -/
theorem readIndex_eq_some {token : String} {i : Nat} :
    readIndex? token = some i ↔ ordinal? token = some i ∧ i < Nat.pow 2 64 := by
  unfold readIndex? ordinal?
  dsimp only
  split_ifs with hbad hsmall
  · simp
  · constructor
    · intro h
      exact ⟨h, Option.some.inj h ▸ hsmall⟩
    · exact fun h => h.1
  · constructor
    · nofun
    · rintro ⟨h, hi⟩
      exact absurd (Option.some.inj h ▸ hi) hsmall

theorem position_of_ordinal {token : String} {i : Nat} (h : ordinal? token = some i) : position? token = some i := by
  unfold ordinal? at h
  dsimp only at h
  split_ifs at h with hbad
  rw [not_or, not_or, not_not] at hbad
  rw [position?, if_pos ⟨hbad.1, hbad.2.1⟩]
  exact h

private theorem toList_toString (n : Nat) : (toString n).toList = Nat.toDigits 10 n := by
  rw [Nat.toString_eq_repr, Nat.toList_repr]

private theorem isDigit_of_mem_decimal {n : Nat} {c : Char} (h : c ∈ (toString n).toList) :
    Number.isDigit c := by
  rw [toList_toString] at h
  exact Nat.isDigit_of_mem_toDigits (by decide) (by decide) h

private theorem slash_not_mem_decimal (i : Nat) : '/' ∉ (toString i).toList :=
  fun h => absurd (isDigit_of_mem_decimal h) (by decide)

private theorem tilde_not_mem_decimal (i : Nat) : '~' ∉ (toString i).toList :=
  fun h => absurd (isDigit_of_mem_decimal h) (by decide)

theorem writes_index (i : Nat) : Writes (toString i) (toString i) :=
  writes_of_not_mem (slash_not_mem_decimal i) (tilde_not_mem_decimal i)

/-- An index is a token that needs no escapes. -/
theorem child_toString (i : Nat) : child (toString i) = "/" ++ toString i := by
  rw [child, escape, escapeChars_of_not_mem (slash_not_mem_decimal i) (tilde_not_mem_decimal i),
    String.ofList_toList]

/-- The decimal digits of a number other than zero do not start with a zero. -/
private theorem head_toDigits {n : Nat} (h : 0 < n) : (Nat.toDigits 10 n).head? ≠ some '0' := by
  induction n using Nat.strongRecOn with
  | _ n ih =>
    have hdigit : ∀ n < 10, 0 < n → [Nat.digitChar n].head? ≠ some '0' := by decide
    by_cases hn : n < 10
    · rw [Nat.toDigits_of_lt_base hn]
      exact hdigit n hn h
    · rw [Nat.toDigits_of_base_le (by decide) (by omega), List.head?_append_of_ne_nil _ Nat.toDigits_ne_nil]
      exact ih (n / 10) (by omega) (by omega)

theorem ordinal_toString (i : Nat) : ordinal? (toString i) = some i := by
  have hgood : ¬ ((toString i).toList = [] ∨ ¬ (toString i).toList.all Number.isDigit ∨
      ((toString i).toList.length > 1 ∧ (toString i).toList.head? = some '0')) := by
    rintro (hempty | hdigits | ⟨hlong, hhead⟩)
    · rw [toList_toString] at hempty
      exact Nat.toDigits_ne_nil hempty
    · exact hdigits (List.all_eq_true.mpr fun c hc => isDigit_of_mem_decimal hc)
    · rw [toList_toString] at hlong hhead
      rcases Nat.eq_zero_or_pos i with rfl | hi
      · rw [Nat.toDigits_zero] at hlong
        exact absurd hlong (by decide)
      · exact head_toDigits hi hhead
  have hvalue : Number.digitsValue (toString i).toList = i := by
    rw [toList_toString]
    exact Nat.ofDigitChars_ten_toDigits
  unfold ordinal?
  dsimp only
  rw [if_neg hgood, hvalue]

/-- The tokens of a pointer that reads; the empty pointer, which addresses the whole value, has none. -/
def path? (pointer : String) : Option (List String) := if pointer = "" then some [] else tokens? pointer

/-- One slash further in a pointer is one token further. -/
theorem path_child {pointer text token : String} {tokens : List String} (hw : Writes text token)
    (h : path? pointer = some tokens) : path? (pointer ++ "/" ++ text) = some (tokens ++ [token]) := by
  have hlast : (Text.pieces '/' text.toList).map (fun piece => String.ofList (unescapeChars piece)) = [token] := by
    rw [Text.pieces_of_not_mem hw.noSlash, List.map_singleton, hw.reads, String.ofList_toList]
  have htext : (pointer ++ "/" ++ text).toList = pointer.toList ++ '/' :: text.toList := by simp
  have hne : pointer ++ "/" ++ text ≠ "" := by
    intro hempty
    rw [hempty] at htext
    simp at htext
  rw [path?, if_neg hne, tokens?, htext]
  unfold path? at h
  split_ifs at h with hempty
  · obtain rfl := Option.some.inj h
    rw [hempty]
    change some ((Text.pieces '/' text.toList).map _) = _
    rw [hlast, List.nil_append]
  · unfold tokens? at h
    split at h
    · rename_i rest hrest
      obtain rfl := Option.some.inj h
      rw [hrest]
      change some ((Text.pieces '/' (rest ++ '/' :: text.toList)).map _) = _
      rw [Text.pieces_append, List.map_append, hlast]
    · cases h

end Pointer

namespace Json

theorem pointer?_eq (v : Json) (pointer : String) :
    v.pointer? pointer = (Pointer.path? pointer).bind v.follow? := by
  unfold pointer? Pointer.path?
  split <;> rfl

/-- The part of a value that a token names. -/
def part? (v : Json) (token : String) : Option Json :=
  match v with
  | .obj members => members.lookup token
  | .arr items => (Pointer.position? token).bind (items[·]?)
  | _ => none

/-- The part of a part, and so on, for each token in turn. -/
def parts? : Json → List String → Option Json
  | v, [] => some v
  | v, token :: rest => (v.part? token).bind (parts? · rest)

/-- The value that a pointer after a `#` addresses. -/
def at? (document : Json) (pointer : String) : Option Json :=
  match pointer.toList with
  | ['#'] => some document
  | '#' :: fragment => (Pointer.tokens? (String.ofList fragment)).bind document.parts?
  | _ => none

/-- The part of a value that a token names, where an index has its one written form, whatever its size. -/
def childNamed? (v : Json) (token : String) : Option Json :=
  match v with
  | .obj members => members.lookup token
  | .arr items => (Pointer.ordinal? token).bind (items[·]?)
  | _ => none

/-- The value that a list of tokens addresses. -/
def walk? : Json → List String → Option Json
  | v, [] => some v
  | v, token :: rest => (v.childNamed? token).bind (walk? · rest)

/-- The value at a pointer, where indices have any size. -/
def addressed? (document : Json) (pointer : String) : Option Json := (Pointer.path? pointer).bind document.walk?

/-- The pointer, behind its hash, addresses the value. -/
def LeadsTo (document : Json) (pointer : String) (v : Json) : Prop :=
  ∃ fragment, pointer = "#" ++ fragment ∧ document.addressed? fragment = some v

variable {document v w : Json} {tokens : List String}

theorem childNamed_of_get {name : String} (h : v.get? name = some w) : v.childNamed? name = some w := by
  cases v with
  | obj members => exact h
  | _ => cases h

theorem childNamed_index {items : List Json} {i : Nat} (h : items[i]? = some w) :
    (Json.arr items).childNamed? (toString i) = some w := by
  rw [childNamed?, Pointer.ordinal_toString]
  exact h

theorem childNamed_of_childAt {token : String} (h : v.childAt? token = some w) : v.childNamed? token = some w := by
  cases v with
  | obj members => exact h
  | arr items =>
    obtain ⟨i, hi, hw⟩ := Option.bind_eq_some_iff.mp h
    rw [childNamed?, (Pointer.readIndex_eq_some.mp hi).1]
    exact hw
  | _ => cases h

theorem part_of_childNamed {token : String} (h : v.childNamed? token = some w) : v.part? token = some w := by
  cases v with
  | obj members => exact h
  | arr items =>
    obtain ⟨i, hi, hw⟩ := Option.bind_eq_some_iff.mp h
    rw [part?, Pointer.position_of_ordinal hi]
    exact hw
  | _ => cases h

theorem walk_of_follow (h : v.follow? tokens = some w) : v.walk? tokens = some w := by
  induction tokens generalizing v with
  | nil => exact h
  | cons token rest ih =>
    obtain ⟨next, hnext, hrest⟩ := Option.bind_eq_some_iff.mp h
    rw [walk?, childNamed_of_childAt hnext]
    exact ih hrest

theorem parts_of_walk (h : v.walk? tokens = some w) : v.parts? tokens = some w := by
  induction tokens generalizing v with
  | nil => exact h
  | cons token rest ih =>
    obtain ⟨next, hnext, hrest⟩ := Option.bind_eq_some_iff.mp h
    rw [parts?, part_of_childNamed hnext]
    exact ih hrest

theorem walk_append (before after : List String) :
    v.walk? (before ++ after) = (v.walk? before).bind (walk? · after) := by
  induction before generalizing v with
  | nil => rfl
  | cons token rest ih =>
    rw [List.cons_append, walk?, walk?, Option.bind_assoc]
    exact Option.bind_congr fun next _ => ih

theorem at_root : document.at? "#" = some document := by
  simp [at?]

theorem leadsTo_root (document : Json) : document.LeadsTo "#" document := ⟨"", rfl, rfl⟩

theorem leadsTo_of_pointer {fragment : String} (h : document.pointer? fragment = some v) :
    document.LeadsTo ("#" ++ fragment) v := by
  rw [pointer?_eq] at h
  obtain ⟨tokens, htokens, hfollow⟩ := Option.bind_eq_some_iff.mp h
  exact ⟨fragment, rfl, Option.bind_eq_some_iff.mpr ⟨tokens, htokens, walk_of_follow hfollow⟩⟩

/-- One token further in the pointer is one part further in the document. -/
theorem LeadsTo.child {pointer text token : String} (h : document.LeadsTo pointer v) (hw : Pointer.Writes text token)
    (hchild : v.childNamed? token = some w) : document.LeadsTo (pointer ++ "/" ++ text) w := by
  obtain ⟨fragment, rfl, haddressed⟩ := h
  obtain ⟨tokens, htokens, hwalk⟩ := Option.bind_eq_some_iff.mp haddressed
  refine ⟨fragment ++ "/" ++ text, by rw [String.append_assoc, String.append_assoc, String.append_assoc], ?_⟩
  rw [addressed?, Pointer.path_child hw htokens, Option.bind_some, walk_append, hwalk, Option.bind_some, walk?, hchild]
  rfl

theorem LeadsTo.at {pointer : String} (h : document.LeadsTo pointer v) : document.at? pointer = some v := by
  obtain ⟨fragment, rfl, haddressed⟩ := h
  obtain ⟨tokens, htokens, hwalk⟩ := Option.bind_eq_some_iff.mp haddressed
  have hhash : ("#" ++ fragment).toList = '#' :: fragment.toList := by simp
  unfold Pointer.path? at htokens
  split_ifs at htokens with hempty
  · obtain rfl := Option.some.inj htokens
    rw [hempty]
    exact at_root.trans hwalk
  · obtain ⟨rest, hrest⟩ : ∃ rest, fragment.toList = '/' :: rest := by
      unfold Pointer.tokens? at htokens
      split at htokens
      · exact ⟨_, ‹_›⟩
      · cases htokens
    rw [at?, hhash, hrest]
    change (Pointer.tokens? (String.ofList ('/' :: rest))).bind document.parts? = some v
    rw [← hrest, String.ofList_toList, htokens]
    exact parts_of_walk hwalk

end Json
end SchemaBound
