import SchemaBound.Proofs.Instance.Edits
import SchemaBound.Proofs.Json.Address

/-! Positions of violations. Each instance on the way out puts the token of the nested one before the paths, and the
whole path reads back as the tokens of all of them and those of the first path. -/
namespace SchemaBound

namespace Error

/-- The error of an instance, seen from the outermost of the instances that the tokens lead through. -/
def along (chain : List String) (e : Error) : Error :=
  chain.foldr (fun token inner => inner.under (Pointer.child token)) e

theorem along_append (outer inner : List String) (e : Error) : e.along (outer ++ inner) = (e.along inner).along outer :=
  List.foldr_append

theorem along_singleton (token : String) (e : Error) : e.along [token] = e.under (Pointer.child token) := rfl

theorem along_index (i : Nat) (e : Error) : e.along [toString i] = e.under (elementPointer i) := by
  rw [along_singleton, Pointer.child_toString, elementPointer]

end Error

namespace Violation

/-- The violation of an instance, seen from the outermost of the instances that the tokens lead through. -/
def along (chain : List String) (v : Violation) : Violation :=
  chain.foldr (fun token inner => inner.under (Pointer.child token)) v

/-- What the path adds behind the position of the checked value. -/
def suffix (v : Violation) : String := if v.path = wholeValue then "" else v.path

/-- The tokens from the checked value to the offending one. -/
def tokens (v : Violation) : List String := if v.path = wholeValue then [] else (Pointer.tokens? v.path).getD []

/-- The path starts with a slash, as pointers into a value and the path of the value itself do. -/
def IsPlaced (v : Violation) : Prop := v.path.toList.head? = some '/'

variable {chain : List String} {v : Violation}

theorem along_append (outer inner : List String) (v : Violation) :
    v.along (outer ++ inner) = (v.along inner).along outer :=
  List.foldr_append

@[simp] theorem keyword_along (chain : List String) (v : Violation) : (v.along chain).keyword = v.keyword := by
  induction chain with
  | nil => rfl
  | cons token rest ih => exact ih

@[simp] theorem message_along (chain : List String) (v : Violation) : (v.along chain).message = v.message := by
  induction chain with
  | nil => rfl
  | cons token rest ih => exact ih

theorem ofTokens_append_ne_wholeValue {token : String} (htoken : token ≠ "") (rest : List String) (suffix : String) :
    Pointer.ofTokens (token :: rest) ++ suffix ≠ wholeValue := by
  intro h
  have hchars := congrArg String.toList h
  rw [String.toList_append, Pointer.toList_ofTokens_cons, wholeValue, List.cons_append, List.append_assoc] at hchars
  have hnil : Pointer.escapeChars token.toList = [] :=
    (List.append_eq_nil_iff.mp (List.cons.inj hchars).2).1
  refine htoken (String.toList_injective ?_)
  rw [← Pointer.unescapeChars_escapeChars token.toList, hnil]
  rfl

/-- The tokens of the chain stand before the path, and nothing stands there for the checked value itself. -/
theorem path_along (hne : chain ≠ []) (hnames : "" ∉ chain) :
    (v.along chain).path = Pointer.ofTokens chain ++ v.suffix := by
  induction chain with
  | nil => exact absurd rfl hne
  | cons token rest ih =>
    rw [List.mem_cons, not_or] at hnames
    change (if (v.along rest).path = wholeValue then Pointer.child token
      else Pointer.child token ++ (v.along rest).path) = _
    cases rest with
    | nil =>
      rw [Pointer.ofTokens, Pointer.ofTokens, String.append_empty, suffix, along, List.foldr_nil]
      split
      · rw [String.append_empty]
      · rfl
    | cons next more =>
      have hnext : next ≠ "" := fun h => hnames.2 (h ▸ List.mem_cons_self)
      rw [ih (List.cons_ne_nil _ _) hnames.2, if_neg (ofTokens_append_ne_wholeValue hnext more v.suffix),
        Pointer.ofTokens.eq_2 token, String.append_assoc]

/-- The path reads back as the tokens of the chain and those from the checked value. -/
theorem target_path_along (hne : chain ≠ []) (hnames : "" ∉ chain) (hv : v.IsPlaced) :
    Pointer.target (v.along chain).path = .ok (chain ++ v.tokens) := by
  rw [path_along hne hnames]
  have htokens : Pointer.tokens? (Pointer.ofTokens chain ++ v.suffix) = some (chain ++ v.tokens) := by
    unfold suffix tokens
    split
    · rw [String.append_empty, List.append_nil, Pointer.tokens_ofTokens hne]
    · obtain ⟨rest, hrest⟩ := List.head?_eq_some_iff.mp hv
      have hreads : (Pointer.tokens? v.path).isSome := by
        rw [Pointer.tokens?, hrest]
        rfl
      obtain ⟨inner, hinner⟩ := Option.isSome_iff_exists.mp hreads
      rw [hinner, Pointer.tokens_ofTokens_append hne hinner, Option.getD_some]
  refine Pointer.target_of_tokens htokens fun h => ?_
  obtain ⟨token, rest, rfl⟩ := List.exists_cons_of_ne_nil hne
  obtain ⟨rfl, _⟩ := List.cons.inj h
  exact hnames List.mem_cons_self

/-- How a violation of an instance reads from the outermost of the instances that the tokens lead through. -/
structure ReportedAlong (chain : List String) (v seen : Violation) : Prop where
  keyword : seen.keyword = v.keyword
  message : seen.message = v.message
  own : chain = [] → seen = v
  path : chain ≠ [] → seen.path = Pointer.ofTokens chain ++ v.suffix
  target : chain ≠ [] → v.IsPlaced → Pointer.target seen.path = .ok (chain ++ v.tokens)

theorem reportedAlong (hnames : "" ∉ chain) (v : Violation) : v.ReportedAlong chain (v.along chain) where
  keyword := keyword_along chain v
  message := message_along chain v
  own h := h ▸ rfl
  path hne := path_along hne hnames
  target hne hv := target_path_along hne hnames hv

end Violation

namespace Error

theorem along_validation (chain : List String) (violations : List Violation) :
    (validation violations).along chain = .validation (violations.map (·.along chain)) := by
  induction chain with
  | nil => simp [along, Violation.along]
  | cons token rest ih =>
    rw [along, List.foldr_cons, ← along, ih, under, List.map_map]
    rfl

/-- Only violations speak of positions. -/
theorem along_of_ne_validation {e : Error} (h : ∀ violations, e ≠ .validation violations) (chain : List String) :
    e.along chain = e := by
  induction chain with
  | nil => rfl
  | cons token rest ih =>
    rw [along, List.foldr_cons, ← along, ih]
    cases e with
    | validation violations => exact absurd rfl (h violations)
    | _ => rfl

theorem exists_of_along_eq_validation {e : Error} {chain : List String} {violations : List Violation}
    (h : e.along chain = .validation violations) :
    ∃ raw, e = .validation raw ∧ violations = raw.map (·.along chain) := by
  by_cases hraw : ∃ raw, e = .validation raw
  · obtain ⟨raw, rfl⟩ := hraw
    rw [along_validation] at h
    exact ⟨raw, rfl, (Error.validation.inj h).symm⟩
  · have hother : e.along chain = e := along_of_ne_validation (not_exists.mp hraw) chain
    exact absurd ⟨violations, hother.symm.trans h⟩ hraw

end Error
end SchemaBound
