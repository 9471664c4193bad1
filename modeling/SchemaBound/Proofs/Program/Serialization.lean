import SchemaBound.Proofs.Instance.Serialization
import SchemaBound.Proofs.Program.Arising
import SchemaBound.Proofs.Program.Places

/-! Both ways out of an instance come to the same text: writing the instance, and printing the value that is collected
from it. They list the set fields once each in the order of declaration, and all the positions, of the instance and of
all that it holds. -/
namespace SchemaBound
open Success

namespace Instance

/-- The other instance is held in a field or at a position. -/
inductive Holds : Instance → Instance → Prop
  | field {m : Model} {name : String} {v : FieldValue} {held : Instance} : m.get? name = some v →
      v.instance? = some held → Holds (.model m) held
  | element {s : Sequence} {i : Nat} {e : Element} {held : Instance} : s.get? i = some e →
      e.instance? = some held → Holds (.sequence s) held

theorem Obeys.held {d : Discipline} {outer held : Instance} (h : outer.Obeys d) (hholds : outer.Holds held) :
    held.Obeys d := by
  cases hholds with
  | @field m name v _ hget hheld =>
    obtain ⟨slot, field, hslot⟩ := Model.slotOf?_of_get? hget
    have hv : v.Obeys d := (Model.Obeys.slotSuits h hslot v rfl).obeys
    cases v with
    | plain raw => cases hheld
    | model nested => exact Option.some.inj hheld ▸ hv
    | sequence nested => exact Option.some.inj hheld ▸ hv
  | @element s i e _ hget hheld =>
    have hitem : some e ∈ s.items := List.mem_of_getElem? (Option.join_eq_some_iff.mp hget)
    have he : e.Obeys d := (Sequence.Obeys.suits h hitem rfl).obeys
    cases e with
    | plain raw => cases hheld
    | model nested => exact Option.some.inj hheld ▸ he

theorem Obeys.inside {d : Discipline} {outer inner : Instance} (h : outer.Obeys d)
    (hinside : Relation.ReflTransGen Holds outer inner) : inner.Obeys d := by
  induction hinside with
  | refl => exact h
  | tail _ hholds ih => exact ih.held hholds

end Instance

/-- The text of the model and that of its value are the same, and list what is set. -/
structure Model.OutputsAgree (m : Model) : Prop where
  agree : m.serialize = m.toJson.compact
  /-- Each listed field is written with its own text. -/
  written : m.serialize =
    "\x7b" ++ ",".intercalate (m.fields.map fun entry => Json.memberText entry.1 entry.2.serialize) ++ "\x7d"
  /-- The values of the listed fields come into the object one after another, and none displaces another. -/
  collected : m.toJson = .obj (Json.collect (m.fields.map fun entry => (entry.1, entry.2.toJson)))
  members : m.toJson = .obj (m.fields.map fun entry => (entry.1, entry.2.toJson))
  set : ∀ name v, (name, v) ∈ m.fields ↔ m.get? name = some v
  ordered : (m.fields.map (·.1)).Sublist (m.type.fields.map Field.name)
  once : (m.fields.map (·.1)).Nodup
  /-- The number that is announced before the fields are written. -/
  announced : m.size = m.fields.length

/-- The text of the sequence and that of its value are the same, and list all positions. -/
structure Sequence.OutputsAgree (s : Sequence) : Prop where
  agree : s.serialize = s.toJson.compact
  written : s.serialize =
    "[" ++ ",".intercalate (s.items.map fun item => (item.map Element.serialize).getD "null") ++ "]"
  /-- There are as many values as are announced before the elements are written, and a null for each hole. -/
  listed : ∃ values, s.toJson = .arr values ∧ values.length = s.size ∧
    ∀ i < s.size, values[i]? = some (((s.get? i).map Element.toJson).getD .null)

def Instance.OutputsAgree : Instance → Prop
  | .model m => m.OutputsAgree
  | .sequence s => s.OutputsAgree

theorem Model.outputsAgree {m : Model} (hn : (m.type.fields.map Field.name).Nodup) (ha : m.IsAligned) :
    m.OutputsAgree := by
  have hmembers : m.toJson = .obj (m.fields.map fun entry => (entry.1, entry.2.toJson)) := by
    rw [m.toJson_eq, snapshot_eq_map, m.fields_eq]
  have hordered : (m.fields.map (·.1)).Sublist (m.type.fields.map Field.name) := names_fieldsIn_sublist _ _
  have honce : (m.fields.map (·.1)).Nodup := hn.sublist hordered
  exact {
    agree := m.serialize_eq
    written := by
      rw [m.fields_eq, ← serializeFields_eq_map]
      obtain ⟨type, values⟩ := m
      rw [serialize]
    collected := by
      rw [Json.collect_of_nodup, hmembers]
      rwa [List.map_map]
    members := hmembers
    set := fun name v => by rw [m.fields_eq, mem_fieldsIn_iff hn, get?_eq, slotOf?]
    ordered := hordered
    once := honce
    announced := (length_fieldsIn ha).symm }

theorem Sequence.outputsAgree (s : Sequence) : s.OutputsAgree where
  agree := s.serialize_eq
  written := by
    obtain ⟨type, items⟩ := s
    rw [serialize, serializeElements_eq_map]
    rfl
  listed := by
    have hlength : (listing s.items).length = s.size := by rw [listing_eq_map, List.length_map, size]
    refine ⟨listing s.items, s.toJson_eq, hlength, fun i hi => ?_⟩
    have hitem : s.items[i]? = some s.items[i] := List.getElem?_eq_getElem hi
    rw [getElem?_listing, get?, hitem]
    rfl

/-- Whatever programs do, an instance that arises and every instance inside it is written as its value is printed. -/
theorem Arises.outputs_agree [Memory] {allowed : Engine → Options → Prop} {found inner : Instance}
    (h : Arises allowed found)
    (hinside : Relation.ReflTransGen Instance.Holds found inner) : inner.OutputsAgree := by
  have ho := h.hasDistinctNames.inside hinside
  cases inner with
  | model m => exact m.outputsAgree (Blueprint.Throughout.self (Model.obeys_iff.mp ho).1) ho.isAligned
  | sequence s => exact s.outputsAgree

section Samples

/-- An object with a nested object, and with a list whose elements are objects or null. -/
def ledger : Schema := ⟨.obj [
  ("type", .str "object"),
  ("properties", .obj [
    ("owner", .obj [
      ("type", .str "object"),
      ("properties", .obj [("name", .obj [("type", .str "string")])])]),
    ("note", .obj [("type", .str "string")]),
    ("entries", .obj [
      ("type", .str "array"),
      ("items", .obj [("anyOf", .arr [
        .obj [("type", .str "object"), ("properties", .obj [("amount", .obj [("type", .str "integer")])])],
        .obj [("type", .str "null")]])])])])]⟩

/-- Puts an entry behind the end of the list, which leaves a hole. -/
def skipEntry : List ModelStep :=
  [.withSequence "entries" [.setAt 1 (.given (.ok (.plain (.obj [("amount", .num (.int 3))]))))]]

theorem Arises.outputs_agree_hole : ∃ after entries entry,
    Arises (fun engine _ => engine = Engine.draft7) (.model after) ∧ after.get? "note" = none ∧
    after.sequence? "entries" = some entries ∧ entries.get? 0 = none ∧
    (Instance.sequence entries).Holds entry ∧
    after.serialize = "\x7b\"owner\":\x7b\"name\":\"x\"\x7d,\"entries\":[null,\x7b\"amount\":3\x7d]\x7d" ∧
    after.OutputsAgree ∧ entries.OutputsAgree ∧ entry.OutputsAgree := by
  have hrun : yields (ledger.compileModel 0 Engine.draft7 .strict) fun type =>
      yields (type.create (.obj [("owner", .obj [("name", .str "x")]), ("entries", .arr [])])) fun m =>
        yields (runModel skipEntry m []).1 fun done =>
          (done.2.get? "note").isNone &&
          done.2.serialize = "\x7b\"owner\":\x7b\"name\":\"x\"\x7d,\"entries\":[null,\x7b\"amount\":3\x7d]\x7d" &&
          (done.2.sequence? "entries").any fun entries =>
            (entries.get? 0).isNone && (entries.get? 1).any fun e => e.instance?.isSome := by
    decide +kernel
  obtain ⟨type, htype, hrun⟩ := exists_of_yields hrun
  obtain ⟨m, hm, hrun⟩ := exists_of_yields hrun
  obtain ⟨⟨shown, after⟩, hafter, hrun⟩ := exists_of_yields hrun
  simp only [Bool.and_eq_true, Option.any_eq_true, Option.isNone_iff_eq_none, Option.isSome_iff_exists] at hrun
  obtain ⟨⟨hnote, htext⟩, entries, hentries, hhole, e, he, entry, hentry⟩ := hrun
  have hcreated : Arises (fun engine _ => engine = Engine.draft7) (.model m) := .of_create (by decide) rfl htype hm
  have hgiven : modelStepInstances skipEntry = [] := rfl
  have hfound : .model after ∈ (runModel skipEntry m []).instances entryInstances .model := by
    have hout : runModel skipEntry m [] = (.ok (shown, after), (runModel skipEntry m []).2) := Prod.ext hafter rfl
    rw [hout]
    exact List.mem_cons_self
  have harises : Arises (fun engine _ => engine = Engine.draft7) (.model after) :=
    .ranModel hcreated (List.forall_mem_nil _) (hgiven ▸ List.forall_mem_nil _) hfound
  have hsequence : (Instance.model after).Holds (.sequence entries) := .field (Model.get?_of_sequence? hentries) rfl
  have hitem : (Instance.sequence entries).Holds entry := .element he hentry
  have hway : Relation.ReflTransGen Instance.Holds (.model after) (.sequence entries) := .single hsequence
  exact ⟨after, entries, entry, harises, hnote, hentries, hhole, hitem, of_decide_eq_true htext,
    harises.outputs_agree .refl, harises.outputs_agree hway, harises.outputs_agree (hway.tail hitem)⟩

end Samples
end SchemaBound
