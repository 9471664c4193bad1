import SchemaBound.Proofs.Instance.Sound

/-! A committed and sound instance can be built from its own value: the instance made of that value has the
same value. -/
namespace SchemaBound
open Json Success

/-- Held in the same way, with the same value. -/
def FieldValue.Alike : FieldValue → FieldValue → Prop
  | .plain v, .plain w => v = w
  | .model m, .model n => m.toJson = n.toJson
  | .sequence s, .sequence t => s.toJson = t.toJson
  | _, _ => False

/-- Held in the same way, with the same value; a hole has become a null. -/
def ElementAlike : Option Element → Element → Prop
  | none, .plain v => v = .null
  | some (.plain v), .plain w => v = w
  | some (.model m), .model n => m.toJson = n.toJson
  | _, _ => False

theorem FieldValue.Alike.toJson {v w : FieldValue} (h : v.Alike w) : v.toJson = w.toJson := by
  cases v <;> cases w <;> first | exact h.elim | simpa [Alike, FieldValue.toJson] using h

section Alike

variable {reading : Reading}

theorem snapshot_congr {values staged : List (Option FieldValue)}
    (h : List.Forall₂ (Option.Rel FieldValue.Alike) values staged) (fields : List Field) :
    snapshot fields values = snapshot fields staged := by
  induction h generalizing fields with
  | nil => rfl
  | @cons slot slot' values staged hslot _ ih =>
    cases fields with
    | nil => simp [snapshot]
    | cons field fields =>
      cases hslot with
      | none => rw [snapshot, snapshot, ih]
      | some hv => rw [snapshot, snapshot, ih, hv.toJson]

theorem FieldValue.Alike.adopt {v w : FieldValue} (h : v.Alike w) (canonical : Option Json) :
    (v.adopt canonical).Alike (w.adopt canonical) := by
  cases v <;> cases w <;> simp only [FieldValue.Alike] at h <;> simp [FieldValue.adopt, FieldValue.Alike, h]

/-- Adopting the same canonical object keeps values alike. -/
theorem alike_adoptFields {values staged : List (Option FieldValue)}
    (h : List.Forall₂ (Option.Rel FieldValue.Alike) values staged) (canonical : Json) (fields : List Field) :
    List.Forall₂ (Option.Rel FieldValue.Alike) (adoptFields canonical fields values)
      (adoptFields canonical fields staged) := by
  induction h generalizing fields with
  | nil => simp
  | @cons slot slot' values staged hslot _ ih =>
    cases fields with
    | nil => simp
    | cons field fields =>
      rw [adoptFields_cons, adoptFields_cons]
      refine .cons ?_ (ih fields)
      cases hslot with
      | none => exact .none
      | some hv => exact .some (hv.adopt _)

theorem listing_congr {items : List (Option Element)} {elements : List Element}
    (h : List.Forall₂ ElementAlike items elements) : listing items = listing (elements.map some) := by
  induction h with
  | nil => rfl
  | @cons item e items elements he _ ih =>
    match item, e, he with
    | none, .plain v, he =>
      obtain rfl : v = .null := he
      rw [List.map_cons, listing, listing, Element.toJson, ih]
    | some (.plain v), .plain w, he =>
      obtain rfl : v = w := he
      rw [List.map_cons, listing, listing, ih]
    | some (.model m), .model n, he =>
      have hjson : m.toJson = n.toJson := he
      rw [List.map_cons, listing, listing, Element.toJson, Element.toJson, hjson, ih]

/-- Adopting the reading of the elements lists the same values; where there was a hole, a null is read. -/
theorem listing_adoptElements_congr {items : List (Option Element)} {elements : List Element}
    (h : List.Forall₂ ElementAlike items elements) (index : Nat) :
    listing (adoptElements (mapTextItems reading index (listing items)) items) =
      listing (adoptElements (mapTextItems reading index (listing items)) (elements.map some)) := by
  induction h generalizing index with
  | nil => rfl
  | @cons item e items elements he _ ih =>
    match item, e, he with
    | none, .plain v, he =>
      simp only [List.map_cons, listing, mapTextItems, mapText, adoptElements, List.tail_cons,
        List.head?_cons, Option.getD_some, Element.toJson, ih]
    | some (.plain v), .plain w, he =>
      simp only [List.map_cons, listing, mapTextItems, adoptElements, List.tail_cons, List.head?_cons,
        Option.getD_some, ih]
    | some (.model m), .model n, he =>
      have hjson : m.toJson = n.toJson := he
      simp only [List.map_cons, listing, mapTextItems, adoptElements, List.tail_cons, Element.toJson,
        hjson, ih]

end Alike

section Slots

variable {field other : Field} {fields : List Field} {slot : Option FieldValue}
  {values : List (Option FieldValue)}

theorem lookup_snapshot_self (hn : field.name ∉ fields.map Field.name) :
    (snapshot (field :: fields) (slot :: values)).lookup field.name = slot.map FieldValue.toJson := by
  cases slot with
  | some v =>
    rw [snapshot]
    simp
  | none =>
    rw [snapshot, Option.map_none, List.lookup_eq_none_iff]
    intro member hm
    have hname := (sublist_names_snapshot fields values).subset (List.mem_map_of_mem hm)
    have hne : field.name ≠ member.1 := by
      rintro heq
      exact hn (heq ▸ hname)
    simpa using hne

theorem lookup_snapshot_other (hne : other.name ≠ field.name) :
    (snapshot (field :: fields) (slot :: values)).lookup other.name =
      (snapshot fields values).lookup other.name := by
  cases slot with
  | none => rw [snapshot]
  | some v => rw [snapshot, List.lookup_cons, beq_eq_false_iff_ne.mpr hne]

end Slots

section Rebuild

variable {judge : Json → Json → List Violation} {options : Options}

private theorem build_of_keepsPlain {kind : FieldKind} {v : Json} (h : kind.keepsPlain v) :
    kind.build v = .ok (.plain v) := by
  cases kind <;> cases v <;> simp_all [FieldKind.build, FieldKind.keepsPlain, isObject, isArray]

private theorem buildElement_of_keepsPlain {element : Option ModelType} {v : Json}
    (h : keepsPlainElement element v) : buildElement element v = .ok (.plain v) := by
  cases element <;> cases v <;> simp_all [buildElement, keepsPlainElement, isObject]

/-- Values alike to those of a committed model can be committed and make the same value. -/
theorem ModelType.commit_of_alike {type : ModelType} {values staged : List (Option FieldValue)}
    (hm : type.commit values = .ok ⟨type, values⟩)
    (h : List.Forall₂ (Option.Rel FieldValue.Alike) values staged) :
    ∃ m, type.commit staged = .ok m ∧ m.toJson = Model.toJson ⟨type, values⟩ := by
  obtain ⟨canonical, hcheck, hadopt⟩ := commit_eq_ok.mp hm
  have hvalues : adoptFields canonical type.fields values = values := (Model.mk.inj hadopt).2.symm
  refine ⟨⟨type, adoptFields canonical type.fields staged⟩, commit_eq_ok.mpr ⟨canonical, ?_, rfl⟩, ?_⟩
  · rw [← snapshot_congr h]
    exact hcheck
  · rw [Model.toJson, Model.toJson, ← snapshot_congr (alike_adoptFields h canonical type.fields), hvalues]

/-- Elements alike to those of a committed sequence can be committed and make the same value. -/
theorem SequenceType.commit_of_alike {type : SequenceType} (hc : type.IsChecked judge options)
    {items : List (Option Element)} {elements : List Element}
    (hs : type.commit items = .ok ⟨type, items⟩) (h : List.Forall₂ ElementAlike items elements) :
    ∃ s, type.commit (elements.map some) = .ok s ∧ s.toJson = Sequence.toJson ⟨type, items⟩ := by
  obtain ⟨reading, hr⟩ := hc.exists_readsBy
  obtain ⟨canonical, hcheck, hadopt⟩ := commit_eq_ok.mp hs
  have hcanonical : canonical.items?.getD [] = mapTextItems reading 0 (listing items) := by
    rw [hr.canonical hcheck, mapText]
    rfl
  have hitems : adoptElements (canonical.items?.getD []) items = items := (Sequence.mk.inj hadopt).2.symm
  refine ⟨⟨type, adoptElements (canonical.items?.getD []) (elements.map some)⟩,
    commit_eq_ok.mpr ⟨canonical, ?_, rfl⟩, ?_⟩
  · rw [← listing_congr h]
    exact hcheck
  · rw [Sequence.toJson, Sequence.toJson, hcanonical, ← listing_adoptElements_congr h 0, ← hcanonical,
      hitems]

mutual
/-- The value of a committed and sound model builds a model of the same value. -/
theorem Model.exists_rebuilt : ∀ {m : Model}, m.type.IsChecked judge options → m.IsCommitted → m.IsSound →
    ∃ m', m.type.build (snapshot m.type.fields m.values) = .ok m' ∧ m'.toJson = m.toJson
  | ⟨type, values⟩, hc, hm, hs => by
    have hchecked := ModelType.isChecked_iff.mp hc
    rw [Model.IsSound] at hs
    obtain ⟨staged, hstaged, halike⟩ := exists_rebuiltFields hchecked.2.2.2 hchecked.2.2.1 hs
      fun field _ => rfl
    obtain ⟨m', hm', hjson⟩ := ModelType.commit_of_alike hm halike
    exact ⟨m', ModelType.build_eq_ok.mpr ⟨staged, hstaged, hm'⟩, hjson⟩

theorem exists_rebuiltFields : ∀ {fields : List Field} {values : List (Option FieldValue)}
    {data : List (String × Json)}, (∀ field ∈ fields, field.kind.IsChecked judge options) →
    (fields.map Field.name).Nodup → slotsFit fields values →
    (∀ field ∈ fields, data.lookup field.name = (snapshot fields values).lookup field.name) →
    ∃ staged, buildFields fields data = .ok staged ∧
      List.Forall₂ (Option.Rel FieldValue.Alike) values staged
  | [], [], data, hc, hn, hs, hd => ⟨[], by rw [buildFields], .nil⟩
  | field :: fields, slot :: values, data, hc, hn, hs, hd => by
    rw [List.map_cons, List.nodup_cons] at hn
    have hhere : data.lookup field.name = slot.map FieldValue.toJson :=
      (hd field List.mem_cons_self).trans (lookup_snapshot_self hn.1)
    have hdata : ∀ other ∈ fields, data.lookup other.name = (snapshot fields values).lookup other.name := by
      intro other ho
      have hne : other.name ≠ field.name := fun heq => hn.1 (heq ▸ List.mem_map_of_mem ho)
      rw [hd other (List.mem_cons_of_mem _ ho), lookup_snapshot_other hne]
    have hkinds : ∀ field ∈ fields, field.kind.IsChecked judge options :=
      fun field hf => hc field (List.mem_cons_of_mem _ hf)
    cases slot with
    | none =>
      rw [slotsFit] at hs
      obtain ⟨staged, hstaged, halike⟩ := exists_rebuiltFields hkinds hn.2 hs hdata
      refine ⟨none :: staged, ?_, .cons .none halike⟩
      rw [buildFields, hhere, hstaged]
      rfl
    | some v =>
      rw [slotsFit] at hs
      obtain ⟨staged, hstaged, halike⟩ := exists_rebuiltFields hkinds hn.2 hs.2 hdata
      obtain ⟨w, hw, hlike⟩ := FieldValue.exists_rebuilt (hc field List.mem_cons_self) hs.1
      have hbuild : field.build v.toJson = .ok w := by
        obtain ⟨name, pointer, kind⟩ := field
        rw [Field.build, mapError_eq_ok]
        exact hw
      refine ⟨some w :: staged, ?_, .cons (.some hlike) halike⟩
      rw [buildFields, hhere, Option.map_some]
      dsimp only
      rw [hbuild, hstaged]
      rfl
  | [], _ :: _, _, _, _, hs, _ => by simp [slotsFit] at hs
  | _ :: _, [], _, _, _, hs, _ => by simp [slotsFit] at hs

theorem FieldValue.exists_rebuilt : ∀ {v : FieldValue} {kind : FieldKind}, kind.IsChecked judge options →
    v.Fits kind → ∃ w, kind.build v.toJson = .ok w ∧ v.Alike w
  | .plain v, kind, hc, hv => by
    rw [FieldValue.Fits] at hv
    refine ⟨.plain v, ?_, rfl⟩
    rw [FieldValue.toJson]
    exact build_of_keepsPlain hv
  | .model m, .object type, hc, hv => by
    obtain ⟨_, heq, rfl, hm, hs⟩ := FieldValue.fits_model.mp hv
    obtain rfl := FieldKind.object.inj heq
    rw [FieldKind.IsChecked] at hc
    obtain ⟨m', hm', hjson⟩ := Model.exists_rebuilt hc hm hs
    refine ⟨.model m', ?_, hjson.symm⟩
    rw [FieldValue.toJson, Model.toJson_eq, FieldKind.build, hm']
    rfl
  | .sequence s, .array type, hc, hv => by
    obtain ⟨_, heq, rfl, hm, hs⟩ := FieldValue.fits_sequence.mp hv
    obtain rfl := FieldKind.array.inj heq
    rw [FieldKind.IsChecked] at hc
    obtain ⟨s', hs', hjson⟩ := Sequence.exists_rebuilt hc hm hs
    refine ⟨.sequence s', ?_, hjson.symm⟩
    rw [FieldValue.toJson, Sequence.toJson_eq, FieldKind.build, hs']
    rfl
  | .model _, .scalar, _, hv | .model _, .union, _, hv | .model _, .array _, _, hv
  | .sequence _, .scalar, _, hv | .sequence _, .union, _, hv | .sequence _, .object _, _, hv => by
    simp [FieldValue.Fits] at hv

/-- The value of a committed and sound sequence builds a sequence of the same value. -/
theorem Sequence.exists_rebuilt : ∀ {s : Sequence}, s.type.IsChecked judge options → s.IsCommitted →
    s.IsSound → ∃ s', s.type.build (listing s.items) = .ok s' ∧ s'.toJson = s.toJson
  | ⟨type, items⟩, hc, hm, hs => by
    have hchecked := SequenceType.isChecked_iff.mp hc
    rw [Sequence.IsSound] at hs
    obtain ⟨elements, hbuilt, halike⟩ := exists_rebuiltElements hchecked.2.2 hs
    obtain ⟨s', hs', hjson⟩ := SequenceType.commit_of_alike hc hm halike
    exact ⟨s', SequenceType.build_eq_ok_iff_forall₂.mpr ⟨elements, hbuilt, hs'⟩, hjson⟩

theorem exists_rebuiltElements : ∀ {element : Option ModelType} {items : List (Option Element)},
    elementIsChecked judge options element → elementsFit element items →
    ∃ elements, List.Forall₂ (fun v e => buildElement element v = .ok e) (listing items) elements ∧
      List.Forall₂ ElementAlike items elements
  | element, [], hc, hs => ⟨[], by rw [listing]; exact .nil, .nil⟩
  | element, none :: items, hc, hs => by
    rw [elementsFit] at hs
    obtain ⟨elements, hbuilt, halike⟩ := exists_rebuiltElements hc hs
    rw [listing]
    refine ⟨.plain .null :: elements, .cons ?_ hbuilt, .cons rfl halike⟩
    cases element <;> simp [buildElement]
  | element, some e :: items, hc, hs => by
    rw [elementsFit] at hs
    obtain ⟨elements, hbuilt, halike⟩ := exists_rebuiltElements hc hs.2
    obtain ⟨e', he', hlike⟩ := Element.exists_rebuilt hc hs.1
    rw [listing]
    exact ⟨e' :: elements, .cons he' hbuilt, .cons hlike halike⟩

theorem Element.exists_rebuilt : ∀ {e : Element} {element : Option ModelType},
    elementIsChecked judge options element → e.Fits element →
    ∃ e', buildElement element e.toJson = .ok e' ∧ ElementAlike (some e) e'
  | .plain v, element, hc, he => by
    rw [Element.Fits] at he
    refine ⟨.plain v, ?_, rfl⟩
    rw [Element.toJson]
    exact buildElement_of_keepsPlain he
  | .model m, some type, hc, he => by
    obtain ⟨_, heq, rfl, hm, hs⟩ := Element.fits_model.mp he
    obtain rfl := Option.some.inj heq
    rw [elementIsChecked] at hc
    obtain ⟨m', hm', hjson⟩ := Model.exists_rebuilt hc hm hs
    refine ⟨.model m', ?_, hjson.symm⟩
    rw [Element.toJson, Model.toJson_eq, buildElement, hm']
    rfl
  | .model _, none, _, he => by simp [Element.Fits] at he
end

end Rebuild
end SchemaBound
