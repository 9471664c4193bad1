import SchemaBound.Proofs.Blueprint.Traversal

/-! Which references mean the same in a node handed to the engine as in the whole document. -/
namespace SchemaBound
open Place

namespace Compilation

variable {document node : Json} {members : List (String × Json)} {key token : String}

/-- The members with those under the key that they lack and the document has. -/
def takeOver (document : Json) (members : List (String × Json)) (key : String) : List (String × Json) :=
  match document.get? key, members.lookup key with
  | some definitions, none => members ++ [(key, definitions)]
  | _, _ => members

theorem attach_eq_foldl (document : Json) (members : List (String × Json)) :
    attach document (.obj members) = .obj (["definitions", "$defs"].foldl (takeOver document) members) := rfl

private theorem lookup_takeOver (document : Json) (members : List (String × Json)) (key token : String) :
    (takeOver document members key).lookup token =
      (members.lookup token).or (if token = key then document.get? key else none) := by
  unfold takeOver
  split
  · rename_i definitions hdocument hmembers
    rw [List.lookup_append, hdocument]
    by_cases htoken : token = key
    · simp [htoken]
    · have hbeq : (token == key) = false := beq_eq_false_iff_ne.mpr htoken
      simp [htoken, List.lookup_cons, hbeq]
  · rename_i hnot
    by_cases htoken : token = key
    · subst htoken
      cases hmembers : members.lookup token with
      | some v => rfl
      | none =>
        cases hdocument : document.get? token with
        | none => simp
        | some definitions => exact (hnot definitions hdocument hmembers).elim
    · simp [htoken]

theorem get_attach (document : Json) (members : List (String × Json)) (token : String) :
    (attach document (.obj members)).get? token =
      (members.lookup token).or (if token ∈ ["definitions", "$defs"] then document.get? token else none) := by
  rw [attach_eq_foldl, Json.get?, List.foldl_cons, List.foldl_cons, List.foldl_nil, lookup_takeOver, lookup_takeOver]
  cases members.lookup token with
  | some v => rfl
  | none =>
    by_cases hfirst : token = "definitions"
    · simp [hfirst]
    · by_cases hsecond : token = "$defs"
      · simp [hsecond]
      · simp [hfirst, hsecond]

/-- The document itself has nothing to take from the document. -/
theorem attach_self (document : Json) : attach document document = document := by
  cases document with
  | obj members =>
    have hsame (key : String) : takeOver (.obj members) members key = members := by
      unfold takeOver
      split
      · rename_i definitions hdocument hmembers
        rw [Json.get?, hmembers] at hdocument
        cases hdocument
      · rfl
    rw [attach_eq_foldl, List.foldl_cons, List.foldl_cons, List.foldl_nil, hsame, hsame]
  | _ => rfl

end Compilation

namespace Place

variable {document : Json} {place target : Place} {reference : String}

/-- The first token of the pointer in a reference. -/
def firstToken? (reference : String) : Option String :=
  match reference.toList with
  | '#' :: fragment => (Pointer.tokens? (String.ofList fragment)).bind List.head?
  | _ => none

/-- The reference goes through definitions that the node, which is not the root, takes from the document, as
it has none of its own under their key. -/
def Borrows (place : Place) (reference : String) : Prop :=
  place.pointer ≠ "#" ∧ place.node.isObject ∧ ∃ key ∈ ["definitions", "$defs"],
    firstToken? reference = some key ∧ place.node.get? key = none

/-- What a reference stands for, told by the pointer in it. -/
private theorem target_eq_some {fragment : String} (h : reference.toList = '#' :: fragment.toList) (v : Json) :
    target? v reference = (v.pointer? fragment).map (⟨"#" ++ fragment, ·⟩) := by
  unfold target?
  rw [h]
  simp only [String.ofList_toList]
  cases v.pointer? fragment <;> rfl

/-- A node that takes definitions over answers for a part as it did before, and from the document for the parts
that it takes over. -/
private theorem childAt_attach (document node : Json) (token : String) :
    (Compilation.attach document node).childAt? token =
      (node.childAt? token).or
        (if node.isObject ∧ token ∈ ["definitions", "$defs"] then document.get? token else none) := by
  cases node with
  | obj members =>
    have hget := Compilation.get_attach document members token
    rw [Compilation.attach_eq_foldl] at hget ⊢
    simpa [Json.childAt?, Json.isObject, Json.get?] using hget
  | _ => simp [Compilation.attach, Json.isObject]

/-- Definitions are members, so only an object has them. -/
private theorem get_of_childAt {v w : Json} {key : String} (hkey : key ∈ ["definitions", "$defs"])
    (h : v.childAt? key = some w) : v.get? key = some w := by
  cases v with
  | obj members => exact h
  | arr items =>
    have hindex : Pointer.readIndex? key = none := by
      simp only [List.mem_cons, List.not_mem_nil, or_false] at hkey
      rcases hkey with rfl | rfl <;> decide
    rw [Json.childAt?, hindex] at h
    cases h
  | _ => cases h

/-- The first token of a pointer decides between the node's own parts and those that it takes over. -/
private theorem follow_attach_iff {node w : Json} {token : String} {rest : List String}
    (h : document.follow? (token :: rest) = some w) :
    (Compilation.attach document node).follow? (token :: rest) = some w ↔
      (node.isObject ∧ token ∈ ["definitions", "$defs"] ∧ node.childAt? token = none) ∨
        node.follow? (token :: rest) = some w := by
  obtain ⟨part, hpart, hrest⟩ := Option.bind_eq_some_iff.mp h
  rw [Json.follow?, Json.follow?, childAt_attach]
  cases hown : node.childAt? token with
  | some own => simp
  | none =>
    rw [Option.none_or]
    by_cases htaken : node.isObject ∧ token ∈ ["definitions", "$defs"]
    · rw [if_pos htaken, get_of_childAt htaken.2 hpart]
      exact ⟨fun _ => Or.inl ⟨htaken.1, htaken.2, rfl⟩, fun _ => hrest⟩
    · rw [if_neg htaken]
      refine ⟨fun hnone => ?_, fun hor => ?_⟩
      · cases hnone
      · rcases hor with ⟨hobject, hkey, _⟩ | hnone
        · exact absurd ⟨hobject, hkey⟩ htaken
        · cases hnone

private theorem isObject_childAt {node : Json} (h : node.isObject) (token : String) :
    node.childAt? token = node.get? token := by
  cases node with
  | obj members => rfl
  | _ => cases h

private theorem tokens_ne_nil (fragment : String) : Pointer.tokens? fragment ≠ some [] := by
  intro h
  unfold Pointer.tokens? at h
  split at h
  · exact Text.pieces_ne_nil _ _ (List.map_eq_nil_iff.mp (Option.some.inj h))
  · cases h

/-- A pointer that the document follows leads to the same part of a node with definitions taken over exactly if the
node is the document, or its first token is one of those definitions, or the bare node follows it to that part. -/
private theorem pointer_attach_iff {node w : Json} {fragment : String} (h : document.pointer? fragment = some w) :
    (Compilation.attach document node).pointer? fragment = some w ↔
      Compilation.attach document node = document ∨
        (node.isObject ∧ ∃ key ∈ ["definitions", "$defs"],
          (Pointer.tokens? fragment).bind List.head? = some key ∧ node.get? key = none) ∨
        node.pointer? fragment = some w := by
  have hdocument (hsame : Compilation.attach document node = document) :
      (Compilation.attach document node).pointer? fragment = some w := by rwa [hsame]
  unfold Json.pointer? at h hdocument ⊢
  by_cases hempty : fragment = ""
  · -- The whole is the same for the node as for the document only if the node is the document.
    rw [if_pos hempty] at h hdocument ⊢
    rw [if_pos hempty]
    obtain rfl := Option.some.inj h
    refine ⟨fun hsame => Or.inl (Option.some.inj hsame), ?_⟩
    rintro (hsame | hborrows | hbare)
    · exact hdocument hsame
    · obtain ⟨_, key, _, hkey, _⟩ := hborrows
      rw [hempty] at hkey
      cases hkey
    · rw [Option.some.inj hbare, Compilation.attach_self]
  · rw [if_neg hempty] at h hdocument ⊢
    rw [if_neg hempty]
    obtain ⟨tokens, htokens, hfollow⟩ := Option.bind_eq_some_iff.mp h
    rw [htokens, Option.bind_some] at hdocument ⊢
    rw [Option.bind_some, Option.bind_some]
    cases tokens with
    | nil => exact absurd htokens (tokens_ne_nil fragment)
    | cons token rest =>
      have hborrows : (node.isObject ∧ ∃ key ∈ ["definitions", "$defs"],
          (token :: rest).head? = some key ∧ node.get? key = none) ↔
            node.isObject ∧ token ∈ ["definitions", "$defs"] ∧ node.childAt? token = none := by
        constructor
        · rintro ⟨hobject, key, hkey, hhead, hlack⟩
          obtain rfl := Option.some.inj hhead
          exact ⟨hobject, hkey, (isObject_childAt hobject _).trans hlack⟩
        · rintro ⟨hobject, hkey, hlack⟩
          exact ⟨hobject, token, hkey, rfl, (isObject_childAt hobject _).symm.trans hlack⟩
      rw [hborrows, ← follow_attach_iff hfollow]
      exact ⟨Or.inr, fun hor => hor.elim hdocument id⟩

/-- A reference that some document resolves is a pointer behind a number sign. -/
private theorem exists_fragment (h : target? document reference = some target) :
    ∃ fragment : String, reference.toList = '#' :: fragment.toList := by
  unfold target? at h
  split at h
  · rename_i chars hchars
    exact ⟨String.ofList chars, by rw [hchars, String.toList_ofList]⟩
  · cases h

private theorem firstToken_eq {fragment : String} (h : reference.toList = '#' :: fragment.toList) :
    firstToken? reference = (Pointer.tokens? fragment).bind List.head? := by
  unfold firstToken?
  rw [h]
  simp only [String.ofList_toList]

/-- In a node with definitions taken over, a reference that the document resolves means the same exactly if the
node is the document, or the reference goes through these definitions, or it means the same in the bare node. -/
theorem target_standalone_iff (hp : place.IsAddressed document) (h : target? document reference = some target) :
    target? (Compilation.standalone document place) reference = some target ↔
      Compilation.standalone document place = document ∨ place.Borrows reference ∨
        target? place.node reference = some target := by
  by_cases hroot : place.pointer = "#"
  · have hnode : Compilation.standalone document place = document := by
      unfold IsAddressed at hp
      rw [hroot, Json.at_root] at hp
      rw [Compilation.standalone, if_pos hroot]
      exact (Option.some.inj hp).symm
    exact ⟨fun _ => Or.inl hnode, fun _ => by rwa [hnode]⟩
  · rw [Compilation.standalone, if_neg hroot]
    obtain ⟨fragment, hfragment⟩ := exists_fragment h
    rw [target_eq_some hfragment] at h
    obtain ⟨w, hw, rfl⟩ := Option.map_eq_some_iff.mp h
    have htarget (v : Json) : target? v reference = some ⟨"#" ++ fragment, w⟩ ↔ v.pointer? fragment = some w := by
      rw [target_eq_some hfragment, Option.map_eq_some_iff]
      simp
    rw [htarget, htarget, pointer_attach_iff hw, Borrows, firstToken_eq hfragment]
    exact or_congr_right (or_congr_left ⟨fun hborrows => ⟨hroot, hborrows⟩, And.right⟩)

end Place

namespace Compilation

variable {job : Compilation}

/-- A compilation that succeeds hands this node to the engine, for the place at its pointer. -/
def Hands (job : Compilation) (handed : Place) : Prop :=
  (∃ type, (run job.rootModel).1 = .ok type ∧ handed ∈ (run job.rootModel).2) ∨
    ∃ type, (run job.rootSequence).1 = .ok type ∧ handed ∈ (run job.rootSequence).2

theorem Hands.exists_reached (hd : job.document.hasDistinctNames) {handed : Place} (h : job.Hands handed) :
    ∃ place, Reached job.document place ∧ handed = ⟨place.pointer, standalone job.document place⟩ := by
  rcases h with ⟨type, htype, hmem⟩ | ⟨type, htype, hmem⟩
  · obtain ⟨done, hends, hhanded⟩ := (meets_rootModel hd).run.1 type htype
    exact hends.handed handed (hhanded ▸ hmem)
  · obtain ⟨done, hends, hhanded⟩ := (meets_rootSequence hd).run.1 type htype
    exact hends.handed handed (hhanded ▸ hmem)

/-- A node that is handed to the engine is the node at its pointer with definitions taken over. A reference that
the document resolves means the same in it exactly if it is the whole document, or the reference goes through
these definitions, or it happens to mean the same inside the bare node. -/
theorem references_of_hands (job : Compilation) (hd : job.document.hasDistinctNames) {handed : Place}
    (h : job.Hands handed) :
    ∃ node, job.document.at? handed.pointer = some node ∧
      handed.node = standalone job.document ⟨handed.pointer, node⟩ ∧
      ∀ reference target, target? job.document reference = some target →
        (target? handed.node reference = some target ↔
          handed.node = job.document ∨ Borrows ⟨handed.pointer, node⟩ reference ∨
            target? node reference = some target) := by
  obtain ⟨place, hp, rfl⟩ := h.exists_reached hd
  have haddressed := hp.isAddressed hd
  exact ⟨place.node, haddressed, rfl, fun reference target htarget => target_standalone_iff haddressed htarget⟩

section Samples

/-- A nested object with references to a definition and to a rule beside its own. -/
def twoReferences : Compilation := ⟨0, .obj [
  ("type", .str "object"),
  ("properties", .obj [
    ("n", .obj [("type", .str "object"), ("properties", .obj [
      ("x", .obj [("$ref", .str "#/properties/y")]), ("z", .obj [("$ref", .str "#/definitions/s")])])]),
    ("y", .obj [("type", .str "string")])]),
  ("definitions", .obj [("s", .obj [("type", .str "string")])])], Engine.draft7, .strict⟩

private theorem exists_hands_nested : ∃ handed, twoReferences.Hands handed ∧
    handed.pointer = "#/properties/n" ∧
    handed.node.pointer? "/properties/z" = some (.obj [("$ref", .str "#/definitions/s")]) ∧
    handed.node.pointer? "/properties/x" = some (.obj [("$ref", .str "#/properties/y")]) ∧
    (target? handed.node "#/properties/y").isNone := by
  have hrun : Success.yields (run twoReferences.rootModel).1 fun _ =>
      (run twoReferences.rootModel).2.any fun handed => handed.pointer = "#/properties/n" &&
        (handed.node.pointer? "/properties/z" = some (.obj [("$ref", .str "#/definitions/s")]) &&
          (handed.node.pointer? "/properties/x" = some (.obj [("$ref", .str "#/properties/y")]) &&
            (target? handed.node "#/properties/y").isNone)) := by decide +kernel
  obtain ⟨type, htype, hany⟩ := Success.exists_of_yields hrun
  obtain ⟨handed, hmem, hall⟩ := List.any_eq_true.mp hany
  simp only [Bool.and_eq_true, decide_eq_true_eq] at hall
  exact ⟨handed, Or.inl ⟨type, htype, hmem⟩, hall⟩

/-- A reference to a definition means in the nested node what it means in the document. -/
theorem references_of_hands_nested : twoReferences.document.hasDistinctNames ∧
    ∃ handed, twoReferences.Hands handed ∧ handed.pointer = "#/properties/n" ∧
      handed.node.pointer? "/properties/z" = some (.obj [("$ref", .str "#/definitions/s")]) ∧
      target? handed.node "#/definitions/s" = some ⟨"#/definitions/s", .obj [("type", .str "string")]⟩ := by
  have hd : twoReferences.document.hasDistinctNames := by decide
  obtain ⟨handed, hhands, hpointer, hz, _, _⟩ := exists_hands_nested
  obtain ⟨node, hnode, _, hiff⟩ := references_of_hands twoReferences hd hhands
  have htarget : target? twoReferences.document "#/definitions/s" =
      some ⟨"#/definitions/s", .obj [("type", .str "string")]⟩ := by rfl
  refine ⟨hd, handed, hhands, hpointer, hz, (hiff _ _ htarget).mpr (Or.inr (Or.inl ?_))⟩
  have hborrows : ∃ node', twoReferences.document.at? "#/properties/n" = some node' ∧ node'.isObject ∧
      node'.get? "definitions" = none := ⟨_, rfl, rfl, rfl⟩
  obtain ⟨node', hnode', hobject, hlack⟩ := hborrows
  rw [hpointer, hnode'] at hnode
  obtain rfl := Option.some.inj hnode
  refine ⟨?_, hobject, "definitions", List.mem_cons_self, by rfl, hlack⟩
  rw [hpointer]
  decide

/-- A reference to a rule beside the nested node, which the document resolves, leads nowhere in it. -/
theorem exists_reference_lost : twoReferences.document.hasDistinctNames ∧
    ∃ handed, twoReferences.Hands handed ∧
      handed.node.pointer? "/properties/x" = some (.obj [("$ref", .str "#/properties/y")]) ∧
      target? twoReferences.document "#/properties/y" =
        some ⟨"#/properties/y", .obj [("type", .str "string")]⟩ ∧
      target? handed.node "#/properties/y" = none := by
  have hd : twoReferences.document.hasDistinctNames := by decide
  obtain ⟨handed, hhands, _, _, hx, hnone⟩ := exists_hands_nested
  exact ⟨hd, handed, hhands, hx, by rfl, Option.isNone_iff_eq_none.mp hnone⟩

end Samples

end Compilation
end SchemaBound
