import SchemaBound.Proofs.InPlace.Refinement
import SchemaBound.Proofs.Instance.Assignment
import SchemaBound.Proofs.Instance.Tokens
import SchemaBound.Proofs.Program.Arising

/-! Assignments below nested instances: at a pointer, by nested changes, and by reading an object. Each of them commits
the innermost instance first and then every one around it, so they agree in what they make and in how they fail. -/
namespace SchemaBound
open Success

/-- An object in an object for each name, around a value. -/
def Json.along (v : Json) : List String → Json
  | [] => v
  | name :: rest => .obj [(name, v.along rest)]

/-- Assigns the field at the end of a path by nested changes, one for each name before the last. -/
def Model.assignAlong (v : Json) : List String → Model → Except Error Model
  | [], m => .ok m
  | [name], m => m.set name (.plain v)
  | name :: next :: rest, m =>
    (m.withModel name fun nested => do return ((), ← nested.assignAlong v (next :: rest))).map (·.2)

/-- Assigns the field at the end of a path by nested changes in place. -/
def InPlace.assignAlong (v : Json) : List String → InPlace Model Unit
  | [] => return ()
  | [name] => InPlace.setField name (.plain v)
  | name :: next :: rest => InPlace.withModel name (assignAlong v (next :: rest))

namespace Model

/-- The path ends at a declared field, and each name before leads to a nested instance. -/
def HoldsAlong : List String → Model → Prop
  | [], _ => False
  | [name], m => name ∈ m.type.fields.map Field.name
  | name :: next :: rest, m => ∃ nested, m.model? name = some nested ∧ nested.HoldsAlong (next :: rest)

instance decidableHoldsAlong : ∀ (path : List String) (m : Model), Decidable (m.HoldsAlong path)
  | [], _ => .isFalse id
  | [name], m => inferInstanceAs (Decidable (name ∈ m.type.fields.map Field.name))
  | name :: next :: rest, m =>
    match hnested : m.model? name with
    | none => .isFalse fun ⟨_, hsome, _⟩ => nomatch hnested.symm.trans hsome
    | some nested =>
      have := decidableHoldsAlong (next :: rest) nested
      decidable_of_iff (nested.HoldsAlong (next :: rest))
        ⟨fun h => ⟨nested, hnested, h⟩, fun ⟨_, hsome, h⟩ => Option.some.inj (hnested.symm.trans hsome) ▸ h⟩

theorem HoldsAlong.ne_nil {m : Model} {path : List String} (h : m.HoldsAlong path) : path ≠ [] := by
  rintro rfl
  exact h

variable {m nested : Model} {name : String}

theorem mem_names_of_model? (h : m.model? name = some nested) : name ∈ m.type.fields.map Field.name := by
  obtain ⟨slot, field, hslot⟩ := slotOf?_of_get? (get?_of_model? h)
  obtain ⟨hfield, _, hname⟩ := slotOf?_eq_some hslot
  exact hname ▸ List.mem_map_of_mem (List.mem_of_getElem? hfield)

/-- A change of a nested instance is all about what it does to that instance. -/
theorem withModel_congr {α : Type} {f f' : Model → Except Error (α × Model)} (h : m.model? name = some nested)
    (hf : f nested = f' nested) : m.withModel name f = m.withModel name f' := by
  rw [InPlace.withModel_of_some h, InPlace.withModel_of_some h, hf]

/-- Reading an object into a nested instance by a change of it is reading the object around it. -/
theorem withModel_merge_eq (ho : m.Obeys (.shaped Blueprint.HasDistinctNames)) (h : m.model? name = some nested)
    (data : List (String × Json)) :
    (m.withModel name fun nested => do return ((), ← nested.merge data)).map (·.2) = m.merge [(name, .obj data)] := by
  have hnames : (m.type.fields.map Field.name).Nodup := Blueprint.Throughout.self (obeys_iff.mp ho).1
  rw [← set_eq_merge hnames ho.isAligned (mem_names_of_model? h), InPlace.withModel_of_some h, set]
  refine congrArg (Except.map _) (change_congr fun slot field current hslot => ?_)
  have hcurrent : current = some (.model nested) := by
    have hget := get?_of_model? h
    rwa [get?_eq, hslot] at hget
  subst hcurrent
  -- the slot holds an instance, so its field is one for objects, and a plain object is read into the instance
  obtain ⟨type, hkind, _⟩ := FieldValue.suits_model.mp (slotSuits_some.mp (ho.slotSuits hslot))
  rw [hkind, FieldKind.stage, mergeValue]
  cases nested.merge data <;> rfl

theorem assignAlong_eq_merge (v : Json) : ∀ {path : List String} {name : String} {m : Model},
    m.Obeys (.shaped Blueprint.HasDistinctNames) → m.HoldsAlong (name :: path) →
    m.assignAlong v (name :: path) = m.merge [(name, v.along path)]
  | [], name, m, ho, h => by
    rw [assignAlong, Json.along]
    exact set_eq_merge (Blueprint.Throughout.self (obeys_iff.mp ho).1) ho.isAligned h v
  | next :: rest, name, m, ho, h => by
    obtain ⟨nested, hnested, hrest⟩ := h
    rw [assignAlong, Json.along, ← withModel_merge_eq ho hnested]
    refine congrArg (Except.map _) (withModel_congr hnested ?_)
    rw [assignAlong_eq_merge v (obeys_of_model? ho hnested) hrest]

theorem edit_eq_assignAlong [Memory] (pointer : String) (v : Json) : ∀ {path : List String} {m : Model},
    m.HoldsAlong path →
    m.edit pointer (.set v) path = m.assignAlong v path
  | [name], m, h => by rw [edit, assignAlong]
  | name :: next :: rest, m, h => by
    obtain ⟨nested, hnested, hrest⟩ := h
    rw [edit, get?_of_model? hnested]
    refine congrArg (Except.map _) (withModel_congr hnested ?_)
    rw [edit_eq_assignAlong pointer v hrest]

end Model

/-- A failure at any level leaves the outermost instance as it was. -/
theorem InPlace.realizes_assignAlong (v : Json) (path : List String) :
    (InPlace.assignAlong v path).Realizes fun m saved => written (m.assignAlong v path) saved := by
  induction path with
  | nil => exact fun _ _ => rfl
  | cons name rest ih =>
    cases rest with
    | nil => exact InPlace.realizes_setField (.plain v)
    | cons next rest =>
      intro m saved
      dsimp only
      rw [InPlace.assignAlong, Model.assignAlong, InPlace.written_map_snd,
        InPlace.realizes_withModel ih.follows fun nested => do return ((), ← nested.assignAlong v (next :: rest))]
      dsimp only
      cases hnested : m.model? name with
      | none => rfl
      | some nested =>
        dsimp only
        have hconst := InPlace.withModel_eq_const hnested fun nested => do
          return ((), ← nested.assignAlong v (next :: rest))
        rw [hconst, ← InPlace.bind_eq_written]

/-- Assigning the end of a path at a pointer, by an object, and by nested changes: each makes the same instance, or
fails with the same error. In place each does the same, and a failure leaves the instance as it was. -/
structure Model.AssignsAlike [Memory] (m : Model) (path : List String) (v : Json) : Prop where
  pointer : m.setPointer (Pointer.ofTokens path) v = m.assignAlong v path
  update : m.updateData (v.along path) = m.assignAlong v path
  pointerInPlace : ∀ saved, (InPlace.setPointer (Pointer.ofTokens path) v).runOn m saved =
    (InPlace.assignAlong v path).runOn m saved
  updateInPlace : ∀ saved, (InPlace.updateData (v.along path)).runOn m saved =
    (InPlace.assignAlong v path).runOn m saved
  changesInPlace : ∀ saved, (InPlace.assignAlong v path).runOn m saved =
    InPlace.keeping m (InPlace.written (m.assignAlong v path) saved)

/-- Whatever the engine, deep assignments to instances that arise agree, however deep, for every value, and whichever
level refuses it. -/
theorem Arises.deepAssignments_agree [Memory] {allowed : Engine → Options → Prop} {m : Model}
    (h : Arises allowed (.model m))
    {path : List String} (hroot : path ≠ [""]) (hpath : m.HoldsAlong path) (v : Json) : m.AssignsAlike path v := by
  have hobeys : m.Obeys (.shaped Blueprint.HasDistinctNames) := h.hasDistinctNames
  have hpointer : m.setPointer (Pointer.ofTokens path) v = m.assignAlong v path := by
    rw [Model.setPointer, Pointer.target_ofTokens hpath.ne_nil hroot]
    exact Model.edit_eq_assignAlong _ v hpath
  have hupdate : m.updateData (v.along path) = m.assignAlong v path := by
    obtain ⟨name, rest, rfl⟩ := List.exists_cons_of_ne_nil hpath.ne_nil
    exact (Model.assignAlong_eq_merge v hobeys hpath).symm
  have hchanges := InPlace.realizes_assignAlong v path m
  refine ⟨hpointer, hupdate, fun saved => ?_, fun saved => ?_, hchanges⟩
  · have hrun := @InPlace.realizes_setPointer _ (Pointer.ofTokens path) v m saved
    dsimp only at hrun
    rw [hrun, hpointer, hchanges]
  · have hrun := InPlace.realizes_updateData (v.along path) m saved
    dsimp only at hrun
    rw [hrun, hupdate, hchanges]

section Samples

/-- An object in an object, under names that a pointer has to escape. -/
def escapedNames : Schema := ⟨.obj [
  ("type", .str "object"),
  ("properties", .obj [("a/b", .obj [
    ("type", .str "object"),
    ("properties", .obj [("c~d", .obj [("type", .str "string")])])])])]⟩

theorem deepAssignments_agree_escaped : ∃ m, Arises (fun engine _ => engine = Engine.draft7) (.model m) ∧
    ["a/b", "c~d"] ≠ [""] ∧ m.HoldsAlong ["a/b", "c~d"] ∧ m.AssignsAlike ["a/b", "c~d"] (.str "x") := by
  have hrun : yields (escapedNames.compileModel 0 Engine.draft7 .strict) fun type =>
      yields (type.create (.obj [("a/b", .obj [])])) fun m => m.HoldsAlong ["a/b", "c~d"] := by
    decide +kernel
  obtain ⟨type, htype, hrun⟩ := exists_of_yields hrun
  obtain ⟨m, hm, hrun⟩ := exists_of_yields hrun
  have harises : Arises (fun engine _ => engine = Engine.draft7) (.model m) := .of_create (by decide) rfl htype hm
  have hholds := of_decide_eq_true hrun
  have hroot : ["a/b", "c~d"] ≠ [""] := by decide
  exact ⟨m, harises, hroot, hholds, harises.deepAssignments_agree hroot hholds _⟩

end Samples
end SchemaBound
