import SchemaBound.Proofs.Blueprint.Throughout
import SchemaBound.Proofs.Program.Canonical

/-! Writes leave alone what they do not name. A commit takes the canonical values of all plain fields anew, so
this rests on two facts: what is stored is canonical already, and the canonical value of a part depends on
nothing beside that part. -/
namespace SchemaBound
open Json Success

section Adopt

/-- What a field holds, in a list of values that stand beside the declarations. -/
def heldIn? (name : String) (fields : List Field) (values : List (Option FieldValue)) : Option FieldValue :=
  (fields.findIdx? (·.name = name)).bind fun slot => values[slot]?.join

theorem Model.get?_eq_heldIn? (m : Model) (name : String) :
    m.get? name = heldIn? name m.type.fields m.values := rfl

variable {name : String}

theorem heldIn?_cons (field : Field) (fields : List Field) (current : Option FieldValue)
    (values : List (Option FieldValue)) :
    heldIn? name (field :: fields) (current :: values) =
      if field.name = name then current else heldIn? name fields values := by
  unfold heldIn?
  rw [List.findIdx?_cons]
  by_cases hname : field.name = name
  · simp [hname]
  · simp only [hname, decide_false, Bool.false_eq_true, if_false]
    rw [Option.bind_map]
    rfl

theorem heldIn?_nil (fields : List Field) : heldIn? name fields [] = none := by
  unfold heldIn?
  cases fields.findIdx? (·.name = name) <;> rfl

theorem heldIn?_adoptFields (canonical : Json) (fields : List Field) (values : List (Option FieldValue)) :
    heldIn? name fields (adoptFields canonical fields values) =
      (heldIn? name fields values).map (FieldValue.adopt (canonical.get? name)) := by
  induction fields generalizing values with
  | nil => rfl
  | cons field fields ih =>
    cases values with
    | nil =>
      rw [adoptFields_nil_right, heldIn?_nil]
      rfl
    | cons current values =>
      rw [adoptFields_cons]
      by_cases hname : field.name = name
      · simp [heldIn?_cons, hname]
      · simp [heldIn?_cons, hname, ih]

theorem getElem?_listing (items : List (Option Element)) (i : Nat) :
    (listing items)[i]? = items[i]?.map fun item => (item.map Element.toJson).getD .null := by
  induction items generalizing i with
  | nil => simp [listing]
  | cons item items ih =>
    cases item with
    | none => cases i <;> simp [listing, ih]
    | some e => cases i <;> simp [listing, ih]

end Adopt

section Commit

variable {judge : Json → Json → List Violation} {options : Options}

/-- The plain fields of the model are canonical, each by itself. -/
def Model.IsFixedBy (m : Model) (reading : Reading) : Prop :=
  ∀ name raw, m.get? name = some (.plain raw) → raw.mapText (reading.below (.member name)) = raw

/-- The plain elements of the sequence are canonical, each by itself. -/
def Sequence.IsFixedBy (s : Sequence) (reading : Reading) : Prop :=
  ∀ i raw, s.get? i = some (.plain raw) → raw.mapText (reading.below (.item i)) = raw

theorem Model.IsCommitted.isFixedBy {m : Model} (hc : m.type.IsChecked judge options) (h : m.IsCommitted)
    {reading : Reading} (hr : ReadsBy m.type.check reading) : m.IsFixedBy reading := by
  intro name raw hraw
  obtain ⟨canonical, hcheck⟩ := h.check
  have hheld : canonical.get? name = some raw := h.get_plain hc hcheck hraw
  have hread := Model.get_canonical hr (ModelType.isChecked_iff.mp hc).2.2.1 hcheck hraw
  exact Option.some.inj (hread.symm.trans hheld)

/-- The canonical array holds the reading of every element. -/
theorem Sequence.getElem?_canonical {type : SequenceType} {reading : Reading}
    (hr : ReadsBy type.check reading) {staged : List (Option Element)} {canonical : Json}
    (hcheck : type.check (.arr (listing staged)) = .ok canonical) {i : Nat} {e : Element}
    (he : staged[i]? = some (some e)) :
    (canonical.items?.getD [])[i]? = some (e.toJson.mapText (reading.below (.item i))) := by
  have hitems : canonical.items?.getD [] = mapTextItems reading 0 (listing staged) := by
    rw [hr.canonical hcheck, mapText]
    rfl
  rw [hitems, getElem?_mapTextItems, getElem?_listing, he, Nat.zero_add]
  rfl

theorem Sequence.IsCommitted.isFixedBy {s : Sequence} (h : s.IsCommitted) {reading : Reading}
    (hr : ReadsBy s.type.check reading) : s.IsFixedBy reading := by
  intro i raw hraw
  obtain ⟨canonical, hcheck, hadopt⟩ := SequenceType.commit_eq_ok.mp h
  have hitem : s.items[i]? = some (some (.plain raw)) := Option.join_eq_some_iff.mp hraw
  have hread := Sequence.getElem?_canonical hr hcheck hitem
  have hitems : s.items = adoptElements (canonical.items?.getD []) s.items := congrArg Sequence.items hadopt
  have hadopted : s.items[i]? = some (some (.plain (raw.mapText (reading.below (.item i))))) := by
    rw [hitems, getElem?_adoptElements, hitem, hread]
    rfl
  rw [hitem] at hadopted
  simpa using hadopted.symm

/-- What a commit of staged values leaves of a field that is staged as it was. -/
theorem Model.get?_of_commit {m after : Model} {reading : Reading} (hc : m.type.IsChecked judge options)
    (hr : ReadsBy m.type.check reading) (hm : m.IsFixedBy reading) {staged : List (Option FieldValue)}
    (hcommit : m.type.commit staged = .ok after) {name : String}
    (hsame : heldIn? name m.type.fields staged = m.get? name) : after.get? name = m.get? name := by
  obtain ⟨canonical, hcheck, rfl⟩ := ModelType.commit_eq_ok.mp hcommit
  rw [get?_eq_heldIn?, heldIn?_adoptFields, hsame]
  cases hheld : m.get? name with
  | none => rfl
  | some v =>
    cases v with
    | model nested => rfl
    | sequence nested => rfl
    | plain raw =>
      have hnames : (m.type.fields.map Field.name).Nodup := (ModelType.isChecked_iff.mp hc).2.2.1
      have hstaged : Model.get? ⟨m.type, staged⟩ name = some (.plain raw) := hsame.trans hheld
      have hread := Model.get_canonical (m := ⟨m.type, staged⟩) hr hnames
        (by rw [Model.toJson_eq]; exact hcheck) hstaged
      rw [FieldValue.toJson, hm name raw hheld] at hread
      rw [hread]
      rfl

/-- What a commit of staged elements leaves of a position that is staged as it was. -/
theorem Sequence.get?_of_commit {s after : Sequence} {reading : Reading}
    (hr : ReadsBy s.type.check reading) (hs : s.IsFixedBy reading) {staged : List (Option Element)}
    (hcommit : s.type.commit staged = .ok after) {i : Nat} (hsame : staged[i]? = s.items[i]?) :
    after.get? i = s.get? i := by
  obtain ⟨canonical, hcheck, rfl⟩ := SequenceType.commit_eq_ok.mp hcommit
  unfold Sequence.get?
  dsimp only
  rw [getElem?_adoptElements, hsame]
  rcases hitem : s.items[i]? with _ | _ | ⟨raw⟩ | ⟨nested⟩
  · rfl
  · rfl
  · have hraw : s.get? i = some (.plain raw) := Option.join_eq_some_iff.mpr hitem
    have hread := Sequence.getElem?_canonical hr hcheck (hsame.trans hitem)
    rw [Element.toJson, hs i raw hraw] at hread
    rw [hread]
    rfl
  · rfl

end Commit

section Writes

variable {α : Type} {m after : Model} {name : String}

/-- The second model is what a commit made of values that agree with the first in every field but the named
ones. -/
def Model.CommitsBut (m after : Model) (named : String → Bool) : Prop :=
  ∃ staged, m.type.commit staged = .ok after ∧
    ∀ name, named name = false → heldIn? name m.type.fields staged = m.get? name

theorem heldIn?_set_ne {fields : List Field} {values : List (Option FieldValue)} {slot : Nat} {field : Field}
    (hfield : fields[slot]? = some field) (hname : field.name ≠ name) (value : Option FieldValue) :
    heldIn? name fields (values.set slot value) = heldIn? name fields values := by
  unfold heldIn?
  cases hfound : fields.findIdx? (·.name = name) with
  | none => rfl
  | some i =>
    have hne : slot ≠ i := by
      rintro rfl
      obtain ⟨hlt, hi, _⟩ := List.findIdx?_eq_some_iff_getElem.mp hfound
      rw [List.getElem?_eq_getElem hlt, Option.some.injEq] at hfield
      rw [hfield] at hi
      exact hname (of_decide_eq_true hi)
    simp [List.getElem?_set_ne hne]

theorem Model.commitsBut_change {f : Field → Option FieldValue → Except Error (α × Option FieldValue)}
    {a : α} (h : m.change name f = .ok (a, after)) : m.CommitsBut after fun other => other = name := by
  obtain ⟨slot, field, current, value, hslot, _, hafter⟩ := change_eq_ok.mp h
  obtain ⟨hfield, _, rfl⟩ := slotOf?_eq_some hslot
  refine ⟨m.values.set slot value, hafter, fun other hother => ?_⟩
  have hname : field.name ≠ other := fun heq => by simp [heq] at hother
  exact heldIn?_set_ne hfield hname value

private theorem Model.commitsBut_map_change
    {f : Field → Option FieldValue → Except Error (α × Option FieldValue)}
    (h : (m.change name f).map (·.2) = .ok after) : m.CommitsBut after fun other => other = name := by
  obtain ⟨⟨a, after'⟩, hchange, rfl⟩ := map_eq_ok.mp h
  exact commitsBut_change hchange

theorem heldIn?_of_mergeFields {fields : List Field} {values staged : List (Option FieldValue)}
    {data : List (String × Json)} (h : mergeFields fields values data = .ok staged)
    (hname : data.lookup name = none) : heldIn? name fields staged = heldIn? name fields values := by
  induction fields generalizing values staged with
  | nil => rfl
  | cons field fields ih =>
    cases values with
    | nil =>
      obtain rfl := Except.ok.inj (mergeFields_nil_right.symm.trans h)
      rfl
    | cons current values =>
      obtain ⟨slot, rest, hslot, hrest, rfl⟩ := mergeFields_cons_eq_ok.mp h
      rw [heldIn?_cons, heldIn?_cons, ih hrest]
      by_cases hhere : field.name = name
      · rw [hhere, hname] at hslot
        obtain rfl := Except.ok.inj hslot
        rfl
      · rw [if_neg hhere, if_neg hhere]

theorem Model.commitsBut_merge {data : List (String × Json)} (h : m.merge data = .ok after) :
    m.CommitsBut after fun name => (data.lookup name).isSome := by
  obtain ⟨staged, hstaged, hafter⟩ := merge_eq_ok.mp h
  refine ⟨staged, hafter, fun name hname => ?_⟩
  exact heldIn?_of_mergeFields hstaged (Option.not_isSome_iff_eq_none.mp (by simp [hname]))

/-- However deep the place is that the tokens address, it is inside the field that the first one names. -/
theorem Model.commitsBut_edit [Memory] {pointer : String} {change : Edit} {tokens : List String}
    (h : m.edit pointer change tokens = .ok after) :
    m.CommitsBut after fun name => tokens.head? = some name := by
  have hhead {m after : Model} {name : String} (rest : List String)
      (hc : m.CommitsBut after fun other => other = name) :
      m.CommitsBut after fun other => (name :: rest).head? = some other := by
    simpa [eq_comm] using hc
  have hcarries : change.Carries (fun tokens m after => m.CommitsBut after fun name => tokens.head? = some name)
      (fun _ _ _ => True) :=
    { set _ h := hhead [] (commitsBut_map_change h)
      unset _ h := hhead [] (commitsBut_map_change h)
      assign _ _ _ := trivial
      remove _ _ _ _ := trivial
      withModel h _ := hhead _ (commitsBut_change h)
      withSequence h _ := hhead _ (commitsBut_change h)
      updateAt _ _ _ := trivial }
  exact hcarries.model h

end Writes

section Steps

variable [Memory] {saved saved' : Saved} {answer : Answer}

/-- The fields that a step names. A step that exchanges the fields as a whole names every one. -/
def ModelStep.names : ModelStep → String → Bool
  | .set field _, name | .replace field _, name | .unset field, name | .withModel field _, name
  | .withSequence field _, name => name = field
  | .updateData (.obj data), name => (data.lookup name).isSome
  | .setPointer pointer _, name | .unsetPointer pointer, name =>
    ((Pointer.tokens? pointer).bind List.head?) = some name
  | .validate _, _ | .integers, _ | .look, _ | .save _, _ | .compare _, _ => false
  | .attempt step, name => step.names name
  | _, _ => true

/-- The positions that a step names. Elements that come in at the end have no position before, and a step
that moves elements names all that it moves. -/
def SequenceStep.names : SequenceStep → Nat → Bool
  | .append _, _ | .push _, _ => false
  | .setAt position _, i | .updateAt position _, i => i = position
  | .spliceAt start _ _, i => start ≤ i
  | .look, _ | .save _, _ | .compare _, _ => false
  | .attempt step, i => step.names i
  | _, _ => true

/-- A step that succeeds either changes nothing or commits values that agree in every field it does not
name, unless it names them all. -/
theorem ModelStep.commitsBut_of_run : ∀ (step : ModelStep) {m after : Model} {saved saved' : Saved}
    {answer : Answer}, step.run m saved = (.ok (answer, after), saved') →
    after = m ∨ m.CommitsBut after step.names ∨ ∀ name, step.names name
  | .set name input, m, after, saved, saved', answer, h => by
    rw [run, Outcome.of_eq_ok, bind_eq_ok] at h
    obtain ⟨⟨value, _, hset⟩, _⟩ := h
    exact Or.inr (Or.inl (Model.commitsBut_map_change hset))
  | .replace name input, m, after, saved, saved', answer, h => by
    rw [run, Outcome.of_eq_ok, bind_eq_ok] at h
    obtain ⟨⟨value, _, hreplace⟩, _⟩ := h
    exact Or.inr (Or.inl (Model.commitsBut_map_change hreplace))
  | .unset name, m, after, saved, saved', answer, h => by
    rw [run, Outcome.of_eq_ok] at h
    exact Or.inr (Or.inl (Model.commitsBut_map_change h.1))
  | .updateData data, m, after, saved, saved', answer, h => by
    rw [run, Outcome.of_eq_ok] at h
    obtain ⟨h, _⟩ := h
    unfold Model.updateData at h
    split at h
    · exact Or.inr (Or.inl (Model.commitsBut_merge h))
    · cases h
  | .setPointer pointer v, m, after, saved, saved', answer, h => by
    rw [run, Outcome.of_eq_ok] at h
    obtain ⟨tokens, htokens, hedit⟩ := bind_eq_ok.mp h.1
    have hcommits := Model.commitsBut_edit hedit
    refine Or.inr (Or.inl ?_)
    simpa [names, Pointer.tokens_of_target htokens] using hcommits
  | .unsetPointer pointer, m, after, saved, saved', answer, h => by
    rw [run, Outcome.of_eq_ok] at h
    obtain ⟨tokens, htokens, hedit⟩ := bind_eq_ok.mp h.1
    have hcommits := Model.commitsBut_edit hedit
    refine Or.inr (Or.inl ?_)
    simpa [names, Pointer.tokens_of_target htokens] using hcommits
  | .withModel name body, m, after, saved, saved', answer, h => by
    obtain ⟨_, _, _, _, _, _, hwith⟩ := exists_of_run_withModel h
    exact Or.inr (Or.inl (Model.commitsBut_change hwith))
  | .withSequence name body, m, after, saved, saved', answer, h => by
    obtain ⟨_, _, _, _, _, _, hwith⟩ := exists_of_run_withSequence h
    exact Or.inr (Or.inl (Model.commitsBut_change hwith))
  | .validate candidate, m, after, saved, saved', answer, h
  | .compare name, m, after, saved, saved', answer, h => by
    rw [run] at h
    obtain ⟨_, _, hanswer⟩ := map_eq_ok.mp (Prod.mk.inj h).1
    exact Or.inl (Prod.mk.inj hanswer).2.symm
  | .integers, m, after, saved, saved', answer, h => by
    rw [run] at h
    split at h
    · exact Or.inl (Prod.mk.inj (Except.ok.inj (Prod.mk.inj h).1)).2.symm
    · cases (Prod.mk.inj h).1
  | .look, m, after, saved, saved', answer, h
  | .save name, m, after, saved, saved', answer, h => by
    rw [run] at h
    exact Or.inl (Prod.mk.inj (Except.ok.inj (Prod.mk.inj h).1)).2.symm
  | .attempt step, m, after, saved, saved', answer, h => by
    rw [run_attempt] at h
    rcases Outcome.passOver_eq_ok.mp h with h | ⟨_, _, _, rfl⟩
    · rcases step.commitsBut_of_run h with hsame | hcommits | hall
      · exact Or.inl hsame
      · exact Or.inr (Or.inl (by simpa [names] using hcommits))
      · exact Or.inr (Or.inr fun name => by rw [names]; exact hall name)
    · exact Or.inl rfl
  | .setData _, _, _, _, _, _, _ | .clear, _, _, _, _, _, _ | .restore _, _, _, _, _, _, _ =>
    Or.inr (Or.inr fun _ => rfl)

/-- The second sequence is what a commit made of elements that agree with the first at every position it has
but the named ones. -/
def Sequence.CommitsBut (s after : Sequence) (named : Nat → Bool) : Prop :=
  ∃ staged, s.type.commit staged = .ok after ∧
    ∀ i, i < s.size → named i = false → staged[i]? = s.items[i]?

/-- A step that succeeds either changes nothing or commits elements that agree at every position it does not
name, unless it names them all. -/
theorem SequenceStep.commitsBut_of_run : ∀ (step : SequenceStep) {s after : Sequence}
    {saved saved' : Saved} {answer : Answer}, step.run s saved = (.ok (answer, after), saved') →
    after = s ∨ s.CommitsBut after step.names ∨ ∀ i, step.names i
  | .append input, s, after, saved, saved', answer, h => by
    rw [run, Outcome.of_eq_ok, bind_eq_ok] at h
    obtain ⟨⟨e, _, happend⟩, _⟩ := h
    obtain ⟨e', _, hafter⟩ := Sequence.append_eq_ok.mp happend
    exact Or.inr (Or.inl ⟨_, hafter, fun i hi _ => List.getElem?_append_left hi⟩)
  | .push inputs, s, after, saved, saved', answer, h => by
    rw [run, Outcome.of_eq_ok, bind_eq_ok] at h
    obtain ⟨⟨elements, _, hpush⟩, _⟩ := h
    obtain ⟨staged, _, hafter⟩ := Sequence.push_eq_ok.mp hpush
    exact Or.inr (Or.inl ⟨_, hafter, fun i hi _ => List.getElem?_append_left hi⟩)
  | .setAt position input, s, after, saved, saved', answer, h => by
    rw [run, Outcome.of_eq_ok, bind_eq_ok] at h
    obtain ⟨⟨e, _, hset⟩, _⟩ := h
    obtain ⟨_, e', _, hafter⟩ := Sequence.setAt_eq_ok.mp hset
    refine Or.inr (Or.inl ⟨_, hafter, fun i hi hname => ?_⟩)
    have hne : position ≠ i := fun heq => by simp [names, heq] at hname
    rw [List.getElem?_set_ne hne, List.getElem?_append_left hi]
  | .spliceAt start count inputs, s, after, saved, saved', answer, h => by
    rw [run] at h
    obtain ⟨⟨removed, after'⟩, hsplice, hafter⟩ := map_eq_ok.mp (Prod.mk.inj h).1
    obtain ⟨_, rfl⟩ := Prod.mk.inj hafter
    obtain ⟨elements, _, hsplice⟩ := bind_eq_ok.mp hsplice
    obtain ⟨_, inserted, _, hcommit⟩ := Sequence.spliceAt_eq_ok.mp hsplice
    refine Or.inr (Or.inl ⟨_, hcommit, fun i hi hname => ?_⟩)
    have hlt : i < min start s.size := by
      simp only [names, decide_eq_false_iff_not] at hname
      omega
    have hkept : i < (s.items.take (min start s.size)).length := by
      rw [List.length_take]
      exact Nat.lt_min.mpr ⟨hlt, hi⟩
    rw [List.append_assoc, List.getElem?_append_left hkept, List.getElem?_take_of_lt hlt]
  | .updateAt position body, s, after, saved, saved', answer, h => by
    obtain ⟨_, _, _, _, _, _, hupdate⟩ := exists_of_run_updateAt h
    obtain ⟨nested, changed, _, _, hcommit⟩ := Sequence.updateAt_eq_ok.mp hupdate
    refine Or.inr (Or.inl ⟨_, hcommit, fun i hi hname => ?_⟩)
    have hne : position ≠ i := fun heq => by simp [names, heq] at hname
    exact List.getElem?_set_ne hne
  | .compare name, s, after, saved, saved', answer, h => by
    rw [run] at h
    obtain ⟨_, _, hanswer⟩ := map_eq_ok.mp (Prod.mk.inj h).1
    exact Or.inl (Prod.mk.inj hanswer).2.symm
  | .look, s, after, saved, saved', answer, h
  | .save name, s, after, saved, saved', answer, h => by
    rw [run] at h
    exact Or.inl (Prod.mk.inj (Except.ok.inj (Prod.mk.inj h).1)).2.symm
  | .attempt step, s, after, saved, saved', answer, h => by
    rw [run_attempt] at h
    rcases Outcome.passOver_eq_ok.mp h with h | ⟨_, _, _, rfl⟩
    · rcases step.commitsBut_of_run h with hsame | hcommits | hall
      · exact Or.inl hsame
      · exact Or.inr (Or.inl (by simpa [names] using hcommits))
      · exact Or.inr (Or.inr fun i => by rw [names]; exact hall i)
    · exact Or.inl rfl
  | .prepend _, _, _, _, _, _, _ | .removeLast, _, _, _, _, _, _ | .removeFirst, _, _, _, _, _, _
  | .clear, _, _, _, _, _, _ | .restore _, _, _, _, _, _, _ =>
    Or.inr (Or.inr fun _ => rfl)

end Steps

section Compiled

variable [Memory] {judge : Json → Json → List Violation} {options : Options}

omit [Memory] in
theorem ModelType.get?_empty (type : ModelType) (name : String) : type.empty.get? name = none := by
  unfold empty Model.get?
  cases type.slot? name with
  | none => rfl
  | some slot =>
    rw [Option.bind_some, List.getElem?_map]
    cases type.fields[slot]? <;> rfl

/-- Before the first commit nothing is set. -/
theorem ModelType.Reached.eq_empty {type : ModelType} {m : Model}
    (h : type.Reached ModelStep.isWrite false m) : m = type.empty := by
  refine h.invariant (fun committed m => committed = false → m = type.empty) ?_ ?_ ?_ rfl
  · exact fun _ => rfl
  · intro v m hm hv
    rcases ModelType.create_eq_ok.mp hm with ⟨data, rfl, _⟩ | ⟨_, rfl⟩
    · cases hv
    · rfl
  · intro committed m step saved answer after saved' hm _ hrun hflag
    obtain ⟨hbefore, hcaught⟩ := Bool.or_eq_false_iff.mp hflag
    rw [step.eq_of_isCaught hrun (by simpa using hcaught)]
    exact hm hbefore

/-- Before the first commit there are no elements. -/
theorem SequenceType.Reached.eq_empty {type : SequenceType} {s : Sequence}
    (h : type.Reached SequenceStep.isWrite false s) : s = type.empty := by
  refine h.invariant (fun committed s => committed = false → s = type.empty) ?_ ?_ ?_ rfl
  · exact fun _ => rfl
  · intro items s _ hflag
    cases hflag
  · intro committed s step saved answer after saved' hs hw hrun hflag
    obtain ⟨hbefore, hnothing⟩ := Bool.or_eq_false_iff.mp hflag
    obtain rfl := hs hbefore
    rcases Bool.and_eq_false_iff.mp hnothing with hcaught | hidle
    · exact step.eq_of_isCaught hrun (by simpa using hcaught)
    · -- only a removal from an empty sequence succeeds without a commit
      cases step with
      | removeLast =>
        rw [SequenceStep.run] at hrun
        obtain ⟨⟨removed, after'⟩, hremove, hafter⟩ := map_eq_ok.mp (Prod.mk.inj hrun).1
        obtain ⟨_, rfl⟩ := Prod.mk.inj hafter
        rcases Sequence.removeLast_eq_ok.mp hremove with ⟨_, _, hsame⟩ | ⟨hlast, _⟩
        · exact hsame
        · cases hlast
      | removeFirst =>
        rw [SequenceStep.run] at hrun
        obtain ⟨⟨removed, after'⟩, hremove, hafter⟩ := map_eq_ok.mp (Prod.mk.inj hrun).1
        obtain ⟨_, rfl⟩ := Prod.mk.inj hafter
        rcases Sequence.removeFirst_eq_ok.mp hremove with ⟨_, _, hsame⟩ | ⟨rest, hitems, _⟩
        · exact hsame
        · cases hitems
      | _ => cases hidle

/-- Whatever runs of writes reach is canonical part by part. -/
theorem ModelType.Reached.isFixedBy {type : ModelType} (hc : type.IsChecked judge options)
    {committed : Bool} {m : Model} (h : type.Reached ModelStep.isWrite committed m) {reading : Reading}
    (hr : ReadsBy type.check reading) : m.IsFixedBy reading := by
  cases committed with
  | false =>
    intro name raw hraw
    rw [h.eq_empty, type.get?_empty] at hraw
    cases hraw
  | true =>
    obtain ⟨rfl, hcommitted⟩ := h.type_eq_and_isCommitted hc
    exact (hcommitted rfl).isFixedBy hc hr

/-- Whatever runs of writes reach is canonical element by element. -/
theorem SequenceType.Reached.isFixedBy {type : SequenceType} (hc : type.IsChecked judge options)
    {committed : Bool} {s : Sequence} (h : type.Reached SequenceStep.isWrite committed s)
    {reading : Reading} (hr : ReadsBy type.check reading) : s.IsFixedBy reading := by
  cases committed with
  | false =>
    intro i raw hraw
    rw [h.eq_empty] at hraw
    cases hraw
  | true =>
    obtain ⟨rfl, hcommitted⟩ := h.type_eq_and_isCommitted hc
    exact (hcommitted rfl).isFixedBy hr

/-- A step that succeeds leaves every field and every element that it does not name as it was, in all that
runs of writes reach, of the compiled type and of every type in it. -/
theorem Schema.step_leaves_unnamed (schema : Schema) (hd : schema.document.hasDistinctNames) (number : Nat)
    (inspection : Json → Except SchemaError Unit) (judge : Json → Json → List Violation)
    (options : Options) {root : Blueprint}
    (hroot : schema.CompilesTo number (Engine.judging inspection judge) options root) (path : List String) :
    (∀ type committed m, root.follow? path = some (.model type) →
      type.Reached ModelStep.isWrite committed m →
      ∀ (step : ModelStep) saved answer after saved', step.run m saved = (.ok (answer, after), saved') →
        ∀ name, step.names name = false → after.get? name = m.get? name) ∧
    ∀ type committed s, root.follow? path = some (.sequence type) →
      type.Reached SequenceStep.isWrite committed s →
      ∀ (step : SequenceStep) saved answer after saved', step.run s saved = (.ok (answer, after), saved') →
        ∀ i < s.size, step.names i = false → after.get? i = s.get? i := by
  have hchecked := hroot.isChecked hd
  constructor
  · intro type committed m htype hm step saved answer after saved' hrun name hname
    have hc : type.IsChecked judge options := Blueprint.isChecked_follow hchecked htype
    obtain ⟨reading, hr⟩ := hc.exists_readsBy
    have hfixed := hm.isFixedBy hc hr
    obtain ⟨rfl, _⟩ := hm.type_eq_and_isCommitted hc
    rcases step.commitsBut_of_run hrun with rfl | ⟨staged, hcommit, hsame⟩ | hall
    · rfl
    · exact Model.get?_of_commit hc hr hfixed hcommit (hsame name hname)
    · simp [hall name] at hname
  · intro type committed s htype hs step saved answer after saved' hrun i hi hname
    have hc : type.IsChecked judge options := Blueprint.isChecked_follow hchecked htype
    obtain ⟨reading, hr⟩ := hc.exists_readsBy
    have hfixed := hs.isFixedBy hc hr
    obtain ⟨rfl, _⟩ := hs.type_eq_and_isCommitted hc
    rcases step.commitsBut_of_run hrun with rfl | ⟨staged, hcommit, hsame⟩ | hall
    · rfl
    · exact Sequence.get?_of_commit hr hfixed hcommit (hsame i hi hname)
    · simp [hall i] at hname

end Compiled

section Samples

private def integer : Json := .obj [("type", .str "integer")]

/-- A schema of two integers and a list of integers. -/
def twoAndList : Schema := ⟨.obj [
  ("type", .str "object"),
  ("properties", .obj [
    ("a", integer), ("b", integer), ("l", .obj [("type", .str "array"), ("items", integer)])])]⟩

/-- Integers that come in as texts stay what they were made when another one is set, in the object and in its
list. -/
theorem step_leaves_unnamed_after_conversion :
    ∃ type inner, twoAndList.compileModel 0 Engine.draft7 .coercing = .ok type ∧
      (Blueprint.model type).follow? ["l"] = some (.sequence inner) ∧
      (∃ m answer after saved', type.Reached ModelStep.isWrite true m ∧
        (ModelStep.set "a" (.given (.ok (.plain (.str "4"))))).run m [] = (.ok (answer, after), saved') ∧
        after.toJson = .obj [("a", .num (.int 4)), ("b", .num (.int 2)), ("l", .arr [.num (.int 3)])] ∧
        after.get? "b" = m.get? "b") ∧
      ∃ s answer after saved', inner.Reached SequenceStep.isWrite true s ∧
        (SequenceStep.setAt 0 (.given (.ok (.plain (.str "6"))))).run s [] = (.ok (answer, after), saved') ∧
        after.toJson = .arr [.num (.int 6), .num (.int 5)] ∧ after.get? 1 = s.get? 1 := by
  have hrun : yields (twoAndList.compileModel 0 Engine.draft7 .coercing) fun type =>
      (yields (type.create (.obj [("b", .str "2"), ("a", .str "1"), ("l", .arr [.str "3"])])) fun m =>
        yields ((ModelStep.set "a" (.given (.ok (.plain (.str "4"))))).run m []).1 fun result =>
          result.2.toJson =
            Json.obj [("a", .num (.int 4)), ("b", .num (.int 2)), ("l", .arr [.num (.int 3)])]) &&
      match (Blueprint.model type).follow? ["l"] with
      | some (.sequence inner) =>
        yields (inner.create [.str "3", .str "5"]) fun s =>
          yields ((SequenceStep.setAt 0 (.given (.ok (.plain (.str "6"))))).run s []).1 fun result =>
            result.2.toJson = Json.arr [.num (.int 6), .num (.int 5)] && 1 < s.size
      | some (.model _) => false
      | none => false := by decide +kernel
  obtain ⟨type, htype, hrun⟩ := exists_of_yields hrun
  obtain ⟨hmodel, hsequence⟩ := Bool.and_eq_true_iff.mp hrun
  have hcompiles : twoAndList.CompilesTo 0 Engine.draft7 .coercing (.model type) := htype
  rw [Engine.draft7_eq_judging] at hcompiles
  have hframe := Schema.step_leaves_unnamed twoAndList (by decide) 0 _ _ .coercing hcompiles
  split at hsequence
  · rename_i inner hinner
    refine ⟨type, inner, htype, hinner, ?_, ?_⟩
    · obtain ⟨m, hm, hmodel⟩ := exists_of_yields hmodel
      obtain ⟨⟨answer, after⟩, hafter, hvalue⟩ := exists_of_yields hmodel
      have hreached : type.Reached ModelStep.isWrite true m := .create hm
      have hset : (ModelStep.set "a" (.given (.ok (.plain (.str "4"))))).run m [] =
        (.ok (answer, after), _) := Prod.ext hafter rfl
      exact ⟨m, answer, after, _, hreached, hset, of_decide_eq_true hvalue,
        (hframe []).1 type true m rfl hreached _ _ _ _ _ hset "b" (by decide)⟩
    · obtain ⟨s, hs, hsequence⟩ := exists_of_yields hsequence
      obtain ⟨⟨answer, after⟩, hafter, hvalue⟩ := exists_of_yields hsequence
      obtain ⟨hvalue, hsize⟩ := Bool.and_eq_true_iff.mp hvalue
      have hreached : inner.Reached SequenceStep.isWrite true s := .create hs
      have hset : (SequenceStep.setAt 0 (.given (.ok (.plain (.str "6"))))).run s [] =
        (.ok (answer, after), _) := Prod.ext hafter rfl
      exact ⟨s, answer, after, _, hreached, hset, of_decide_eq_true hvalue,
        (hframe ["l"]).2 inner true s hinner hreached _ _ _ _ _ hset 1 (of_decide_eq_true hsize) (by decide)⟩
  · cases hsequence
  · cases hsequence

end Samples
end SchemaBound
