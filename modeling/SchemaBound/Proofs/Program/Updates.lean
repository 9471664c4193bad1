import Mathlib.Data.List.Nodup
import SchemaBound.Proofs.Instance.Assignment
import SchemaBound.Proofs.Instance.Declared
import SchemaBound.Proofs.Instance.DeepMerge
import SchemaBound.Proofs.Program.PlainRuns

/-! Updates of what runs of writes reach: they merge deeply, an assignment is an update of one member, and
assignments in any order come to the same as one update of all of them. -/
namespace SchemaBound
open Json Success

/-- What a sound model holds under a declared name fits the kind of that field. -/
theorem Model.IsSound.slotFits_get {m : Model} (hs : m.IsSound) (hn : (m.type.fields.map Field.name).Nodup)
    {name : String} {field : Field} (hfield : m.type.field? name = some field) : SlotFits field.kind (m.get? name) := by
  intro v hv
  unfold ModelType.field? at hfield
  rw [get?_eq] at hv
  obtain ⟨⟨slot, field', current⟩, hslot, hcurrent⟩ := Option.bind_eq_some_iff.mp hv
  obtain ⟨hhere, hvalue, hname'⟩ := slotOf?_eq_some hslot
  have hname : field.name = name := by simpa using List.find?_some hfield
  obtain rfl : field' = field :=
    List.inj_on_of_nodup_map hn (List.mem_of_getElem? hhere) (List.mem_of_find?_eq_some hfield)
      (hname'.trans hname.symm)
  exact forall₂_getElem (slotsFit_iff.mp (isSound_iff.mp hs)) hhere hvalue v hcurrent

/-- An update of what runs of plain writes reach merges deeply, if the engine leaves accepted values as they are.
An object is read into the one that a field has exactly where the field holds an instance. Whatever the engine, an
assignment to a declared field is an update of one member, in what it makes and in why it is refused. -/
theorem Schema.updateData_deepMerge [Memory] (schema : Schema) (hd : schema.document.hasDistinctNames) (number : Nat)
    (engine : Engine) (options : Options) {root : Blueprint}
    (hroot : schema.CompilesTo number engine options root) {type : ModelType}
    (htype : root.Reaches (.model type)) :
    (engine.IsVerbatim options → ∀ committed m, type.Reached ModelStep.isPlainWrite committed m →
      (∀ name inner, (type.field? name).map Field.kind = some (.object inner) →
        ((∃ nested, m.get? name = some (.model nested)) ↔ ∃ members, m.value? name = some (.obj members))) ∧
      ∀ old data after, m.toJson = .obj old → m.updateData (.obj data) = .ok after →
        after.toJson = type.deepMerge old data) ∧
    ∀ committed m, type.Reached ModelStep.isWrite committed m → ∀ name ∈ type.fields.map Field.name, ∀ v,
      m.set name (.plain v) = m.updateData (.obj [(name, v)]) := by
  have hfrom : type.Throughout (Blueprint.ComesFrom engine options) := (hroot.comesFrom hd).reached htype
  have hnames : (type.fields.map Field.name).Nodup := hfrom.self.names
  constructor
  · intro hv committed m hm
    have hverbatim := hfrom.mono fun _ h => h.isVerbatim hv
    obtain ⟨rfl, hsound, _⟩ := hm.type_eq_and_isSound (hverbatim.mono fun _ h => h.isReadable)
    refine ⟨fun name inner hkind => ?_, fun old data after hold hafter => ?_⟩
    · obtain ⟨field, hfield, hobject⟩ := Option.map_eq_some_iff.mp hkind
      exact (hobject ▸ hsound.slotFits_get hnames hfield).object_iff
    · have hmerge := Model.toJson_of_merge hverbatim hsound hafter
      rw [m.toJson_eq] at hold
      rw [hmerge, Json.obj.inj hold]
  · intro committed m hm name hname v
    obtain ⟨rfl, haligned⟩ := hm.type_eq_and_isAligned
    exact Model.set_eq_merge hnames haligned hname v

section Samples

private def integerNode : Json := .obj [("type", .str "integer")]

/-- A schema of an integer, an object of integers and a list. -/
def integersAndList : Schema := ⟨.obj [
  ("properties", .obj [
    ("a", integerNode), ("n", .obj [("properties", .obj [("x", integerNode), ("y", integerNode)])]),
    ("l", .obj [("items", integerNode)])])]⟩

private def storedRecord : List (String × Json) :=
  [("n", .obj [("x", .num (.int 1)), ("y", .num (.int 2))]), ("l", .arr [.num (.int 3)])]

private def recordUpdate : List (String × Json) := [("n", .obj [("z", .null), ("x", .num (.int 4))]), ("l", .arr [])]

private def updatedRecord : Json := .obj [("n", .obj [("x", .num (.int 4)), ("y", .num (.int 2))]), ("l", .arr [])]

private def innerAssignment : List ModelStep := [.withModel "n" [.set "y" (.given (.ok (.plain (.num (.int 2)))))]]

/-- A member of a nested object is exchanged and one that was assigned inside of it is kept. -/
theorem updateData_deepMerge_nested :
    ∃ type m after, integersAndList.compileModel 0 Engine.draft7 .strict = .ok type ∧
      type.Reached ModelStep.isPlainWrite true m ∧ m.toJson = .obj storedRecord ∧
      m.updateData (.obj recordUpdate) = .ok after ∧ after.toJson = updatedRecord ∧
      m.set "a" (.plain .null) = m.updateData (.obj [("a", .null)]) := by
  have hrun : yields (integersAndList.compileModel 0 Engine.draft7 .strict) fun type =>
      type.deepMerge storedRecord recordUpdate = updatedRecord && "a" ∈ type.fields.map Field.name &&
      yields (type.create (.obj [("n", .obj [("x", .num (.int 1))]), ("l", .arr [.num (.int 3)])]))
        fun made => yields (runModel (innerAssignment.map .attempt) made []).1 fun result =>
          result.2.toJson = Json.obj storedRecord &&
          yields (result.2.updateData (.obj recordUpdate)) fun _ => true := by decide +kernel
  obtain ⟨type, htype, hrun⟩ := exists_of_yields hrun
  obtain ⟨hrun, hmade⟩ := Bool.and_eq_true_iff.mp hrun
  obtain ⟨hmerge, hname⟩ := Bool.and_eq_true_iff.mp hrun
  obtain ⟨made, hmade, hrun⟩ := exists_of_yields hmade
  obtain ⟨⟨entries, m⟩, hsteps, hrun⟩ := exists_of_yields hrun
  obtain ⟨hvalue, hupdate⟩ := Bool.and_eq_true_iff.mp hrun
  obtain ⟨after, hafter, _⟩ := exists_of_yields hupdate
  have hcompiles : integersAndList.CompilesTo 0 Engine.draft7 .strict (.model type) := htype
  obtain ⟨hdeep, hset⟩ :=
    Schema.updateData_deepMerge integersAndList (by decide) 0 Engine.draft7 .strict hcompiles .refl
  have hcreated (allowed : ModelStep → Bool) : type.Reached allowed true made := .create hmade
  have hplain := ((hcreated ModelStep.isPlainWrite).run (by decide) (Prod.ext hsteps rfl)).1
  have hwrite := ((hcreated ModelStep.isWrite).run (by decide) (Prod.ext hsteps rfl)).1
  have hmerged := (hdeep (Engine.isVerbatim_draft7 rfl) true m hplain).2 _ _ after (of_decide_eq_true hvalue) hafter
  exact ⟨type, m, after, htype, hplain, of_decide_eq_true hvalue, hafter,
    hmerged.trans (of_decide_eq_true hmerge), hset true m hwrite "a" (of_decide_eq_true hname) .null⟩

end Samples

/-- If the members of an object can be assigned one after another, in some order, then one update with the object
makes the same, under conversion too. So all orders in which this succeeds end alike. A member that can be assigned
is declared. -/
theorem Schema.updateData_of_assignEach [Memory] (schema : Schema) (hd : schema.document.hasDistinctNames)
    (number : Nat)
    (inspection : Json → Except SchemaError Unit) (judge : Json → Json → List Violation)
    (options : Options) {root : Blueprint}
    (hroot : schema.CompilesTo number (Engine.judging inspection judge) options root) {type : ModelType}
    (htype : root.Reaches (.model type)) {committed : Bool} {m : Model}
    (hm : type.Reached ModelStep.isWrite committed m) {data : List (String × Json)} (hne : data ≠ [])
    (hkeys : (data.map (·.1)).Nodup) :
    (∀ order last, order.Perm data → m.assignEach order = .ok last → m.updateData (.obj data) = .ok last) ∧
    ∀ order other last last', order.Perm data → other.Perm data → m.assignEach order = .ok last →
      m.assignEach other = .ok last' → last = last' := by
  obtain ⟨rfl, haligned⟩ := hm.type_eq_and_isAligned
  have hchecked : m.type.IsChecked judge options := (hroot.isChecked hd).throughout (.model m.type) htype
  have hupdate (order : List (String × Json)) (last : Model) (hperm : order.Perm data)
      (hlast : m.assignEach order = .ok last) : m.updateData (.obj data) = .ok last := by
    have horder : (order.map (·.1)).Nodup := (hperm.map (·.1)).nodup_iff.mpr hkeys
    have hnonempty : order ≠ [] := fun hnil => hne (List.nil_perm.mp (hnil ▸ hperm))
    have hmerge := Model.merge_of_assignEach hchecked.isReadable.self haligned horder hnonempty hlast
    rw [Model.merge_of_perm hperm horder] at hmerge
    exact hmerge
  refine ⟨hupdate, fun order other last last' horder hother hlast hlast' => ?_⟩
  have hsame := (hupdate order last horder hlast).symm.trans (hupdate other last' hother hlast')
  exact Except.ok.inj hsame

section Samples

private def textForA : String × Json := ("a", .str "4")
private def textInN : String × Json := ("n", .obj [("y", .str "5")])
private def textInL : String × Json := ("l", .arr [.str "3"])

private def convertedRecord : Json := .obj [
  ("a", .num (.int 4)), ("n", .obj [("x", .num (.int 1)), ("y", .num (.int 5))]), ("l", .arr [.num (.int 3)])]

/-- Three texts that are converted, one of them inside of an object that is kept, in two orders. -/
theorem updateData_of_assignEach_converted :
    ∃ type m last, integersAndList.compileModel 0 Engine.draft7 .coercing = .ok type ∧
      type.Reached ModelStep.isWrite true m ∧
      m.assignEach [textInN, textForA, textInL] = .ok last ∧ m.assignEach [textInL, textInN, textForA] = .ok last ∧
      m.updateData (.obj [textForA, textInN, textInL]) = .ok last ∧ last.toJson = convertedRecord := by
  have hrun : yields (integersAndList.compileModel 0 Engine.draft7 .coercing) fun type =>
      yields (type.create (.obj [("n", .obj [("x", .str "1"), ("y", .str "2")])])) fun m =>
        (yields (m.assignEach [textInN, textForA, textInL]) fun last => last.toJson = convertedRecord) &&
        yields (m.assignEach [textInL, textInN, textForA]) fun _ => true := by decide +kernel
  obtain ⟨type, htype, hrun⟩ := exists_of_yields hrun
  obtain ⟨m, hm, hrun⟩ := exists_of_yields hrun
  obtain ⟨hfirst, hsecond⟩ := Bool.and_eq_true_iff.mp hrun
  obtain ⟨last, hlast, hvalue⟩ := exists_of_yields hfirst
  obtain ⟨last', hlast', _⟩ := exists_of_yields hsecond
  have hcompiles : integersAndList.CompilesTo 0 Engine.draft7 .coercing (.model type) := htype
  rw [Engine.draft7_eq_judging] at hcompiles
  have hreached : type.Reached ModelStep.isWrite true m := .create hm
  have hkeys : ([textForA, textInN, textInL].map (·.1)).Nodup := by decide
  obtain ⟨hupdate, hsame⟩ := Schema.updateData_of_assignEach integersAndList (by decide) 0 _ _ .coercing hcompiles
    .refl hreached (List.cons_ne_nil _ _) hkeys
  have hperm : [textInN, textForA, textInL].Perm [textForA, textInN, textInL] := .swap _ _ _
  have hperm' : [textInL, textInN, textForA].Perm [textForA, textInN, textInL] :=
    List.reverse_perm [textForA, textInN, textInL]
  obtain rfl := hsame _ _ last last' hperm hperm' hlast hlast'
  exact ⟨type, m, last, htype, hreached, hlast, hlast', hupdate _ last hperm hlast, of_decide_eq_true hvalue⟩

end Samples
end SchemaBound
