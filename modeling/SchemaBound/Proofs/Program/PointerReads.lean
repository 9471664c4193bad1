import SchemaBound.Proofs.Program.Arising
import SchemaBound.Proofs.Program.Places

/-! Reading back what was written at a pointer. Writes find the position of an element where reads find it, but for one
spelling: a write takes digits with a plus sign for a position, and a read does not. -/
namespace SchemaBound
open Json Success

namespace Pointer

/-- The token starts with a plus sign. -/
def isSigned (token : String) : Bool := token.toList.head? = some '+'

theorem naturalText?_of_not_isSigned {token : String} (hsign : isSigned token = false) :
    naturalText? token =
      if token.toList = [] ∨ ¬ token.toList.all Number.isDigit then none
      else if Number.digitsValue token.toList < Nat.pow 2 64 then some (Number.digitsValue token.toList) else none := by
  unfold naturalText?
  dsimp only
  split
  · rename_i rest htoken
    rw [isSigned, htoken, List.head?_cons, decide_eq_false_iff_not] at hsign
    exact absurd rfl hsign
  · rfl

/-- Reads and writes take unsigned tokens alike. -/
theorem index?_of_not_isSigned {token : String} (hdash : token ≠ "-") (hsign : isSigned token = false) (length : Nat) :
    index? length token = readIndex? token := by
  unfold index? readIndex?
  rw [if_neg hdash, naturalText?_of_not_isSigned hsign, ← String.length_toList]
  by_cases hzeros : token.toList.length > 1 ∧ token.toList.head? = some '0'
  · simp [hzeros]
  · simp only [hzeros, if_false, or_false]

theorem readIndex?_of_isSigned {token : String} (hsign : isSigned token) : readIndex? token = none := by
  have hhead : token.toList.head? = some '+' := of_decide_eq_true hsign
  obtain ⟨rest, htoken⟩ := List.head?_eq_some_iff.mp hhead
  have hall : ¬ token.toList.all Number.isDigit := by
    rw [htoken, List.all_cons]
    simp [show Number.isDigit '+' = false by decide]
  rw [readIndex?, if_pos (Or.inr (Or.inl hall))]

theorem index?_eq_index? {token : String} (hdash : token ≠ "-") (length length' : Nat) :
    index? length token = index? length' token := by
  unfold index?
  rw [if_neg hdash, if_neg hdash]

end Pointer

namespace Instance

/-- The token is a position in a sequence, written with a sign. -/
def isSignedAt : Instance → String → Bool
  | .model _, _ => false
  | .sequence _, token => Pointer.isSigned token

/-- Some token on the way is a position in a sequence, written with a sign. -/
def takesSign : List String → Instance → Bool
  | [], _ => false
  | token :: rest, i => i.isSignedAt token || (i.held? token).any (takesSign rest)

/-- No two fields share a name. -/
def HasDistinctNames : Instance → Prop
  | .model m => (Blueprint.model m.type).HasDistinctNames
  | .sequence _ => True

variable {i held inner changed after : Instance} {token : String} {w : Json}

theorem hasDistinctNames_of_obeys (ho : i.Obeys (.shaped Blueprint.HasDistinctNames)) : i.HasDistinctNames := by
  cases i with
  | model m => exact Blueprint.Throughout.self (Model.obeys_iff.mp ho).1
  | sequence s => trivial

theorem stored?_of_held? (h : i.held? token = some inner) : i.stored? token = some inner.toJson := by
  cases i with
  | model m =>
    obtain ⟨v, hget, hv⟩ := Option.bind_eq_some_iff.mp h
    rw [stored?, Model.value?, hget]
    cases v with
    | plain raw => cases hv
    | _ => obtain rfl := Option.some.inj hv; rfl
  | sequence s =>
    obtain ⟨k, hk, h⟩ := Option.bind_eq_some_iff.mp h
    obtain ⟨e, hget, he⟩ := Option.bind_eq_some_iff.mp h
    rw [stored?, hk, Option.bind_some, hget]
    cases e with
    | plain raw => cases he
    | model nested => obtain rfl := Option.some.inj he; rfl

/-- In the value of an instance a read finds what is stored, unless the token has a sign. -/
theorem childAt?_toJson (hn : i.HasDistinctNames) (hdash : token ≠ "-") (h : i.stored? token = some w) :
    i.toJson.childAt? token = if i.isSignedAt token then none else some w := by
  cases i with
  | model m =>
    have hread : m.toJson.childAt? token = m.toJson.get? token := by rw [m.toJson_eq]; rfl
    rw [toJson, hread, Model.get_toJson hn]
    exact h
  | sequence s =>
    rw [toJson, s.toJson_eq, childAt?, isSignedAt]
    cases hsign : Pointer.isSigned token with
    | true =>
      rw [Pointer.readIndex?_of_isSigned hsign]
      rfl
    | false =>
      obtain ⟨k, hk, h⟩ := Option.bind_eq_some_iff.mp h
      obtain ⟨e, hget, rfl⟩ := Option.map_eq_some_iff.mp h
      rw [Pointer.index?_of_not_isSigned hdash hsign] at hk
      rw [hk, Option.bind_some, getElem?_listing, Option.join_eq_some_iff.mp hget]
      rfl

theorem takesSign_singleton (i : Instance) (token : String) : i.takesSign [token] = i.isSignedAt token := by
  rw [takesSign]
  cases i.held? token <;> simp [takesSign]

theorem takesSign_append {way rest : List String} (h : i.inner? way = some held) :
    i.takesSign (way ++ rest) = (i.takesSign way || held.takesSign rest) := by
  induction way generalizing i with
  | nil =>
    obtain rfl := Option.some.inj h
    rfl
  | cons token way ih =>
    obtain ⟨inner, hinner, h⟩ := Option.bind_eq_some_iff.mp h
    rw [List.cons_append, takesSign, takesSign, hinner, Option.any_some, Option.any_some, ih h, Bool.or_assoc]

/-- Both are instances of one type. -/
def SharesType : Instance → Instance → Prop
  | .model m, .model m' => m'.type = m.type
  | .sequence s, .sequence s' => s'.type = s.type
  | _, _ => False

theorem SharesType.hasDistinctNames : ∀ {i after : Instance}, i.SharesType after → i.HasDistinctNames →
    after.HasDistinctNames
  | .model m, .model m', h, hn => by
    rw [HasDistinctNames, show m'.type = m.type from h]
    exact hn
  | .sequence _, .sequence _, _, _ => trivial

theorem SharesType.isSignedAt (token : String) : ∀ {i after : Instance}, i.SharesType after →
    after.isSignedAt token = i.isSignedAt token
  | .model _, .model _, _ => rfl
  | .sequence _, .sequence _, _ => rfl

theorem Exchanges.sharesType (h : i.Exchanges token inner changed after) : i.SharesType after := by
  cases h with
  | field _ hcommit => exact ModelType.type_of_commit hcommit
  | element _ _ hcommit => exact SequenceType.type_of_commit hcommit

theorem Writes.sharesType [Memory] {change : Edit} (h : i.Writes change token after) : i.SharesType after := by
  cases h with
  | set h => exact (Model.commitsTo_set h).type_eq
  | unset h => exact (Model.commitsTo_unset h).type_eq
  | assign _ h =>
    obtain ⟨_, _, _, hcommit⟩ := Sequence.setAt_eq_ok.mp h
    exact SequenceType.type_of_commit hcommit
  | remove _ _ h =>
    obtain ⟨_, _, _, hcommit⟩ := Sequence.spliceAt_eq_ok.mp h
    exact SequenceType.type_of_commit hcommit

/-- After a write that sets a value something is stored under the token. -/
theorem Writes.exists_stored [Memory] {v : Json} (h : i.Writes (.set v) token after) (hdash : token ≠ "-") :
    ∃ w, after.stored? token = some w := by
  cases h with
  | set h =>
    obtain ⟨slot, field, current, stored, hslot, _, hcommit⟩ := Model.set_eq_ok.mp h
    obtain ⟨canonical, hget⟩ := Model.get?_of_commit_set hslot hcommit
    exact ⟨(stored.adopt canonical).toJson, by rw [stored?, Model.value?, hget]; rfl⟩
  | @assign s after _ k v hk h =>
    obtain ⟨_, e, _, hcommit⟩ := Sequence.setAt_eq_ok.mp h
    have hlt : k < (s.items ++ List.replicate (k + 1 - s.size) none).length := by
      simp only [List.length_append, List.length_replicate, Sequence.size]
      omega
    obtain ⟨canonical, hget⟩ := Sequence.get?_of_commit_items hcommit (List.getElem?_set_self hlt)
    rw [Pointer.index?_eq_index? hdash _ after.size] at hk
    exact ⟨(e.adopt canonical).toJson, by rw [stored?, hk, Option.bind_some, hget]; rfl⟩

/-- In the value after an exchange the way leads to the value of what was put there, unless a token on it has a
sign. -/
theorem ExchangesBelow.follow?_toJson {way rest : List String} (h : ExchangesBelow held changed way i after)
    (ho : i.Obeys (.shaped Blueprint.HasDistinctNames)) (hdash : "-" ∉ way) :
    after.toJson.follow? (way ++ rest) = if i.takesSign way then none else changed.toJson.follow? rest := by
  induction h with
  | here => rfl
  | @inside token way i inner innerAfter after hexchanges _ ih =>
    rw [List.mem_cons, not_or] at hdash
    have hn := hexchanges.sharesType.hasDistinctNames (hasDistinctNames_of_obeys ho)
    have hchild := childAt?_toJson hn (Ne.symm hdash.1) (stored?_of_held? hexchanges.held?_after)
    rw [List.cons_append, follow?, hchild, hexchanges.sharesType.isSignedAt, takesSign, hexchanges.held?,
      Option.any_some]
    cases i.isSignedAt token with
    | true => rfl
    | false =>
      rw [if_neg Bool.false_ne_true, Option.bind_some, ih (hexchanges.obeys ho) hdash.2, Bool.false_or]

end Instance

/-- A read at the pointer finds the value where the tokens lead. -/
theorem Model.pointer?_eq_follow? (m : Model) {pointer : String} {tokens : List String}
    (h : Pointer.target pointer = .ok tokens) : m.pointer? pointer = m.toJson.follow? tokens := by
  have htokens := Pointer.tokens_of_target h
  have hne : pointer ≠ "" := by
    rintro rfl
    cases htokens
  rw [pointer?, Json.pointer?, if_neg hne, htokens, Option.bind_some]

/-- After a value was set at a pointer, a read at the same pointer finds what is stored at its target now; it finds
nothing exactly if a token on the way is a position in a sequence and written with a sign. -/
theorem Arises.pointer?_of_setPointer [Memory] {allowed : Engine → Options → Prop} {m after : Model}
    (h : Arises allowed (.model m)) {pointer : String} {tokens : List String}
    (htarget : Pointer.target pointer = .ok tokens) (hdash : "-" ∉ tokens) {v : Json}
    (hset : m.setPointer pointer v = .ok after) :
    ∃ way last changed w, tokens = way ++ [last] ∧ (Instance.model after).inner? way = some changed ∧
      changed.stored? last = some w ∧
      after.pointer? pointer = if (Instance.model m).takesSign tokens then none else some w := by
  obtain ⟨_, htokens, hedit⟩ := bind_eq_ok.mp hset
  obtain rfl := Except.ok.inj (htokens.symm.trans htarget)
  obtain ⟨way, last, held, changed, rfl, hwrites, hexchanges⟩ := (Instance.carries_edits _).model hedit
  rw [List.mem_append, not_or, List.mem_singleton] at hdash
  have hobeys := h.hasDistinctNames
  obtain ⟨w, hstored⟩ := hwrites.exists_stored (Ne.symm hdash.2)
  have hn := hwrites.sharesType.hasDistinctNames (Instance.hasDistinctNames_of_obeys (hexchanges.obeys hobeys))
  have hchild := Instance.childAt?_toJson hn (Ne.symm hdash.2) hstored
  refine ⟨way, last, changed, w, rfl, hexchanges.inner?_after, hstored, ?_⟩
  rw [after.pointer?_eq_follow? htarget, Instance.takesSign_append hexchanges.inner?]
  have hread := @Instance.ExchangesBelow.follow?_toJson _ _ _ _ _ [last] hexchanges hobeys hdash.1
  rw [Instance.toJson] at hread
  rw [hread, follow?, hchild, hwrites.sharesType.isSignedAt, Instance.takesSign_singleton]
  cases (Instance.model m).takesSign way <;> cases held.isSignedAt last <;> rfl

section Samples

/-- Texts in an array. -/
def listOfTexts : Schema := ⟨.obj [
  ("type", .str "object"),
  ("properties", .obj [("xs", .obj [("type", .str "array"), ("items", .obj [("type", .str "string")])])])]⟩

theorem pointer?_of_setPointer_added : ∃ m after, Arises (fun engine _ => engine = Engine.draft7) (.model m) ∧
    Pointer.target "/xs/2" = .ok ["xs", "2"] ∧ "-" ∉ ["xs", "2"] ∧ m.setPointer "/xs/2" (.str "b") = .ok after ∧
    (after.pointer? "/xs/2").isSome := by
  have hrun : yields (listOfTexts.compileModel 0 Engine.draft7 .strict) fun type =>
      yields (type.create (.obj [("xs", .arr [.str "a", .str "c"])])) fun m =>
        !(Instance.model m).takesSign ["xs", "2"] && yields (m.setPointer "/xs/2" (.str "b")) fun _ => true := by
    decide +kernel
  obtain ⟨type, htype, hrun⟩ := exists_of_yields hrun
  obtain ⟨m, hm, hrun⟩ := exists_of_yields hrun
  rw [Bool.and_eq_true, Bool.not_eq_true'] at hrun
  obtain ⟨after, hafter, _⟩ := exists_of_yields hrun.2
  have harises : Arises (fun engine _ => engine = Engine.draft7) (.model m) := .of_create (by decide) rfl htype hm
  have htarget : Pointer.target "/xs/2" = .ok ["xs", "2"] := by decide
  have hdash : "-" ∉ ["xs", "2"] := by decide
  obtain ⟨_, _, _, w, _, _, _, hread⟩ := harises.pointer?_of_setPointer htarget hdash hafter
  rw [hrun.1, if_neg Bool.false_ne_true] at hread
  exact ⟨m, after, harises, htarget, hdash, hafter, by rw [hread, Option.isSome_some]⟩

/-- What is set with a signed position is stored, and a read with the same pointer does not find it. -/
theorem exists_setPointer_unread : ∃ type m after, listOfTexts.compileModel 0 Engine.draft7 .strict = .ok type ∧
    type.create (.obj [("xs", .arr [.str "a"])]) = .ok m ∧ Pointer.target "/xs/+0" = .ok ["xs", "+0"] ∧
    m.setPointer "/xs/+0" (.str "b") = .ok after ∧ after.toJson = .obj [("xs", .arr [.str "b"])] ∧
    after.pointer? "/xs/+0" = none := by
  have hrun : yields (listOfTexts.compileModel 0 Engine.draft7 .strict) fun type =>
      yields (type.create (.obj [("xs", .arr [.str "a"])])) fun m =>
        yields (m.setPointer "/xs/+0" (.str "b")) fun after =>
          after.toJson = Json.obj [("xs", .arr [.str "b"])] && after.pointer? "/xs/+0" = none := by
    decide +kernel
  obtain ⟨type, htype, hrun⟩ := exists_of_yields hrun
  obtain ⟨m, hm, hrun⟩ := exists_of_yields hrun
  obtain ⟨after, hafter, hvalues⟩ := exists_of_yields hrun
  simp only [Bool.and_eq_true, decide_eq_true_eq] at hvalues
  exact ⟨type, m, after, htype, hm, by decide, hafter, hvalues.1, hvalues.2⟩

end Samples
end SchemaBound
