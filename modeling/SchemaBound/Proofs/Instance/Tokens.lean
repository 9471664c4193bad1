import SchemaBound.Proofs.Instance.Edits
import SchemaBound.Proofs.Json.Address

/-! Reference tokens and their written form. Escaping replaces all the tildes of a token and then all its slashes, and
reading undoes this in the opposite order, so that tokens come back from a pointer that is made of them. -/
namespace SchemaBound

namespace Text

/-- The text with its first characters skipped and every occurrence of the pattern behind them replaced, from left to
right, where occurrences do not overlap. -/
def replaceFrom (pattern replacement : List Char) : (skipped : Nat) → List Char → List Char
  | _, [] => []
  | skipped + 1, _ :: rest => replaceFrom pattern replacement skipped rest
  | 0, c :: rest =>
    if pattern.isPrefixOf (c :: rest) then
      replacement ++ replaceFrom pattern replacement (pattern.length - 1) rest
    else c :: replaceFrom pattern replacement 0 rest

/-- The text with every occurrence of the pattern replaced. -/
def replace (pattern replacement text : List Char) : List Char := replaceFrom pattern replacement 0 text

variable {a b c : Char} {replacement rest : List Char}

@[simp] theorem replace_single_self :
    replace [a] replacement (a :: rest) = replacement ++ replace [a] replacement rest := by
  simp [replace, replaceFrom]

theorem replace_single_ne (h : c ≠ a) : replace [a] replacement (c :: rest) = c :: replace [a] replacement rest := by
  simp [replace, replaceFrom, h.symm]

@[simp] theorem replace_pair_self :
    replace [a, b] replacement (a :: b :: rest) = replacement ++ replace [a, b] replacement rest := by
  simp [replace, replaceFrom]

theorem replace_pair_ne (h : c = a → rest.head? ≠ some b) :
    replace [a, b] replacement (c :: rest) = c :: replace [a, b] replacement rest := by
  have hnone : ¬ [a, b].isPrefixOf (c :: rest) := by
    intro hpre
    cases rest with
    | nil => simp at hpre
    | cons d rest =>
      obtain ⟨hc, hd⟩ : a = c ∧ b = d := by simpa using hpre
      exact h hc.symm (congrArg some hd.symm)
  rw [replace, replaceFrom, if_neg hnone]
  rfl

/-- A character in front that no replacement has was in front before. -/
theorem head?_of_replace_pair (hempty : replacement ≠ []) (hc : c ∉ replacement)
    (h : (replace [a, b] replacement rest).head? = some c) : rest.head? = some c := by
  cases rest with
  | nil => exact h
  | cons d rest =>
    by_cases hd : d = a ∧ rest.head? = some b
    · obtain ⟨rfl, hb⟩ := hd
      obtain ⟨tail, rfl⟩ := List.head?_eq_some_iff.mp hb
      rw [replace_pair_self, List.head?_append_of_ne_nil _ hempty] at h
      exact absurd (List.mem_of_head? h) hc
    · rw [replace_pair_ne fun hda hb => hd ⟨hda, hb⟩] at h
      exact h

end Text

namespace Pointer
open Text

/-- Tildes are escaped before slashes, so that no tilde of an escaped slash is escaped. -/
theorem escapeChars_eq_replace (token : List Char) :
    escapeChars token = replace ['/'] ['~', '1'] (replace ['~'] ['~', '0'] token) := by
  induction token with
  | nil => rfl
  | cons c rest ih =>
    rw [escapeChars, ih]
    split_ifs with htilde hslash
    · rw [htilde, replace_single_self, List.cons_append, List.cons_append, List.nil_append,
        replace_single_ne (by decide), replace_single_ne (by decide)]
    · rw [hslash, replace_single_ne (by decide), replace_single_self]
      rfl
    · rw [replace_single_ne htilde, replace_single_ne hslash]

/-- Slashes are read before tildes, so that no tilde that was read starts a slash. -/
theorem unescapeChars_eq_replace (text : List Char) :
    unescapeChars text = replace ['~', '0'] ['~'] (replace ['~', '1'] ['/'] text) := by
  fun_induction unescapeChars text with
  | case1 => rfl
  | case2 rest ih =>
    have hslash : '/' ≠ '~' := by decide
    rw [replace_pair_self, List.cons_append, List.nil_append, replace_pair_ne fun h => absurd h hslash, ih]
  | case3 rest ih =>
    have hzero : '0' ≠ '~' := by decide
    rw [replace_pair_ne (by simp), replace_pair_ne (c := '0') fun h => absurd h hzero, replace_pair_self, ih]
    rfl
  | case4 c rest hslash htilde ih =>
    -- a tilde stays unless it starts an escape, and the slashes that were read make none of it
    have hone : c = '~' → rest.head? ≠ some '1' := by
      rintro rfl hhead
      obtain ⟨tail, rfl⟩ := List.head?_eq_some_iff.mp hhead
      exact hslash tail rfl rfl
    have hzero : c = '~' → (replace ['~', '1'] ['/'] rest).head? ≠ some '0' := by
      rintro rfl hhead
      obtain ⟨tail, rfl⟩ := List.head?_eq_some_iff.mp (head?_of_replace_pair (by decide) (by decide) hhead)
      exact htilde tail rfl rfl
    rw [replace_pair_ne hone, replace_pair_ne hzero, ih]

/-- The pointer has the tokens that it was made of, unless it is the one that addresses no field. -/
theorem target_ofTokens {tokens : List String} (hempty : tokens ≠ []) (hroot : tokens ≠ [""]) :
    target (ofTokens tokens) = .ok tokens :=
  target_of_tokens (tokens_ofTokens hempty) hroot

theorem ofTokens_injective : Function.Injective ofTokens := by
  intro tokens others h
  have hread : tokens? (ofTokens tokens) = tokens? (ofTokens others) := congrArg tokens? h
  have hnone : tokens? (ofTokens []) = none := rfl
  cases tokens with
  | nil =>
    cases others with
    | nil => rfl
    | cons token rest => rw [hnone, tokens_ofTokens (List.cons_ne_nil _ _)] at hread; cases hread
  | cons token rest =>
    rw [tokens_ofTokens (List.cons_ne_nil _ _)] at hread
    cases others with
    | nil => cases hread
    | cons other others =>
      rw [tokens_ofTokens (List.cons_ne_nil _ _)] at hread
      exact Option.some.inj hread

/-- The tokens of a pointer are the pieces between its slashes, read. -/
theorem target_eq_ok_iff {text : String} {tokens : List String} :
    target text = .ok tokens ↔ ∃ rest, text.toList = '/' :: rest ∧ rest ≠ [] ∧
      tokens = (pieces '/' rest).map fun piece => String.ofList (unescapeChars piece) := by
  have hroot : text = "/" ↔ text.toList = ['/'] := by
    rw [← String.toList_inj]
    rfl
  constructor
  · intro h
    have hne : text ≠ "/" := by
      rintro rfl
      cases h
    have htokens := tokens_of_target h
    unfold tokens? at htokens
    split at htokens
    · rename_i rest hrest
      refine ⟨rest, hrest, ?_, (Option.some.inj htokens).symm⟩
      rintro rfl
      exact hne (hroot.mpr hrest)
    · cases htokens
  · rintro ⟨rest, hrest, hne, rfl⟩
    have hslash : text ≠ "/" := by
      rw [Ne, hroot, hrest]
      simpa using hne
    rw [target, if_neg hslash, tokens?, hrest]
    rfl

/-- Any tokens come back from the pointer that is made of them, except the empty token alone, so that no pointer is made
in two ways; and the pointers that address something start with a slash and are not a slash alone. Escaping and reading
are two replacements each, throughout the token. -/
theorem readsTokensBack :
    (∀ token, child token =
      "/" ++ String.ofList (replace ['/'] ['~', '1'] (replace ['~'] ['~', '0'] token.toList))) ∧
    (∀ text tokens, target text = .ok tokens ↔ ∃ rest, text.toList = '/' :: rest ∧ rest ≠ [] ∧
      tokens = (pieces '/' rest).map fun piece =>
        String.ofList (replace ['~', '0'] ['~'] (replace ['~', '1'] ['/'] piece))) ∧
    (∀ tokens, tokens ≠ [] → tokens ≠ [""] → target (ofTokens tokens) = .ok tokens) ∧
    (∀ tokens others, tokens ≠ others → ofTokens tokens ≠ ofTokens others) ∧
    ∀ text, (∃ tokens, target text = .ok tokens) ↔ text.toList.head? = some '/' ∧ text ≠ "/" := by
  refine ⟨fun token => ?_, fun text tokens => ?_, fun tokens => target_ofTokens,
    fun tokens others hne => ofTokens_injective.ne hne, fun text => ?_⟩
  · rw [← escapeChars_eq_replace]
    rfl
  · simp only [← unescapeChars_eq_replace]
    exact target_eq_ok_iff
  · constructor
    · rintro ⟨tokens, h⟩
      obtain ⟨rest, hrest, hne, _⟩ := target_eq_ok_iff.mp h
      refine ⟨by rw [hrest]; rfl, ?_⟩
      rintro rfl
      exact hne (List.cons.inj hrest).2.symm
    · rintro ⟨hhead, hne⟩
      obtain ⟨rest, hrest⟩ := List.head?_eq_some_iff.mp hhead
      refine ⟨_, target_eq_ok_iff.mpr ⟨rest, hrest, ?_, rfl⟩⟩
      rintro rfl
      exact hne (String.toList_injective hrest)

/-- Tokens with slashes, tildes and what looks like an escape, and one that is empty. -/
theorem readsTokensBack_escapes :
    target (ofTokens ["a/b", "~1", "", "~01", "c~d"]) = .ok ["a/b", "~1", "", "~01", "c~d"] ∧
      ofTokens ["a/b", "~1", "", "~01", "c~d"] = "/a~1b/~01//~001/c~0d" :=
  ⟨readsTokensBack.2.2.1 _ (by decide) (by decide), by decide⟩

end Pointer
end SchemaBound
