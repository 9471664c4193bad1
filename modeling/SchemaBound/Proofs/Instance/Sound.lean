import SchemaBound.Proofs.Instance.Commit

/-! Instances that are sound at every depth: each field and element is held in the way its kind asks for, and
each nested instance is committed. Building from plain values and merging them in makes sound instances. -/
namespace SchemaBound
open Json Success

/-- Values that a field of the kind keeps plain. -/
def FieldKind.keepsPlain : FieldKind → Json → Bool
  | .object _, v => !v.isObject
  | .array _, v => !v.isArray
  | _, _ => true

/-- Values that stay plain as elements. -/
def keepsPlainElement : Option ModelType → Json → Bool
  | some _, v => !v.isObject
  | none, _ => true

mutual
/-- Every field holds what fits its kind. -/
def Model.IsSound : Model → Prop
  | ⟨type, values⟩ => slotsFit type.fields values

/-- Each value fits the kind of its field. -/
def slotsFit : List Field → List (Option FieldValue) → Prop
  | [], [] => True
  | _ :: fields, none :: values => slotsFit fields values
  | field :: fields, some v :: values => v.Fits field.kind ∧ slotsFit fields values
  | _, _ => False

/-- A plain value is one that the kind keeps plain; an instance is of the type that the kind names, committed
and sound. -/
def FieldValue.Fits : FieldValue → FieldKind → Prop
  | .plain v, kind => kind.keepsPlain v
  | .model m, .object type => m.type = type ∧ m.IsCommitted ∧ m.IsSound
  | .sequence s, .array type => s.type = type ∧ s.IsCommitted ∧ s.IsSound
  | _, _ => False

/-- Every element fits the type of elements. -/
def Sequence.IsSound : Sequence → Prop
  | ⟨type, items⟩ => elementsFit type.element items

/-- Each element fits the type. -/
def elementsFit : Option ModelType → List (Option Element) → Prop
  | _, [] => True
  | element, none :: items => elementsFit element items
  | element, some e :: items => e.Fits element ∧ elementsFit element items

/-- A plain element is one that stays plain; an instance is of the type, committed and sound. -/
def Element.Fits : Element → Option ModelType → Prop
  | .plain v, element => keepsPlainElement element v
  | .model m, some type => m.type = type ∧ m.IsCommitted ∧ m.IsSound
  | .model _, none => False
end

/-- A committed and sound instance of the type. -/
structure Model.IsOf (m : Model) (type : ModelType) : Prop where
  type_eq : m.type = type
  committed : m.IsCommitted
  sound : m.IsSound

/-- A committed and sound instance of the type. -/
structure Sequence.IsOf (s : Sequence) (type : SequenceType) : Prop where
  type_eq : s.type = type
  committed : s.IsCommitted
  sound : s.IsSound

theorem Model.isSound_iff {m : Model} : m.IsSound ↔ slotsFit m.type.fields m.values := by
  obtain ⟨type, values⟩ := m
  rw [IsSound]

theorem Sequence.isSound_iff {s : Sequence} : s.IsSound ↔ elementsFit s.type.element s.items := by
  obtain ⟨type, items⟩ := s
  rw [IsSound]

/-- What a slot may hold if its field is of the kind. -/
def SlotFits (kind : FieldKind) (slot : Option FieldValue) : Prop := ∀ v, slot = some v → v.Fits kind

theorem slotFits_none {kind : FieldKind} : SlotFits kind none := by
  intro v h
  cases h

theorem slotFits_some {kind : FieldKind} {v : FieldValue} : SlotFits kind (some v) ↔ v.Fits kind := by
  constructor
  · intro h
    exact h v rfl
  · intro h w hw
    obtain rfl := Option.some.inj hw
    exact h

/-- A nested instance stands only where the kind names its type. -/
theorem FieldValue.fits_model {m : Model} {kind : FieldKind} :
    (FieldValue.model m).Fits kind ↔ ∃ type, kind = .object type ∧ m.IsOf type := by
  cases kind with
  | object type =>
    rw [Fits]
    constructor
    · rintro ⟨htype, hcommitted, hsound⟩
      exact ⟨type, rfl, htype, hcommitted, hsound⟩
    · rintro ⟨_, heq, hof⟩
      obtain rfl := FieldKind.object.inj heq
      exact ⟨hof.type_eq, hof.committed, hof.sound⟩
  | _ => simp [Fits]

/-- A sequence stands only where the kind names its type. -/
theorem FieldValue.fits_sequence {s : Sequence} {kind : FieldKind} :
    (FieldValue.sequence s).Fits kind ↔ ∃ type, kind = .array type ∧ s.IsOf type := by
  cases kind with
  | array type =>
    rw [Fits]
    constructor
    · rintro ⟨htype, hcommitted, hsound⟩
      exact ⟨type, rfl, htype, hcommitted, hsound⟩
    · rintro ⟨_, heq, hof⟩
      obtain rfl := FieldKind.array.inj heq
      exact ⟨hof.type_eq, hof.committed, hof.sound⟩
  | _ => simp [Fits]

/-- An element that is an instance is one of the element type. -/
theorem Element.fits_model {m : Model} {element : Option ModelType} :
    (Element.model m).Fits element ↔ ∃ type, element = some type ∧ m.IsOf type := by
  cases element with
  | none => simp [Fits]
  | some type =>
    rw [Fits]
    constructor
    · rintro ⟨htype, hcommitted, hsound⟩
      exact ⟨type, rfl, htype, hcommitted, hsound⟩
    · rintro ⟨_, heq, hof⟩
      obtain rfl := Option.some.inj heq
      exact ⟨hof.type_eq, hof.committed, hof.sound⟩

theorem slotsFit_iff {fields : List Field} {values : List (Option FieldValue)} :
    slotsFit fields values ↔ List.Forall₂ (fun field slot => SlotFits field.kind slot) fields values := by
  induction fields generalizing values with
  | nil => cases values <;> simp [slotsFit]
  | cons field fields ih =>
    match values with
    | [] => simp [slotsFit]
    | none :: values =>
      rw [slotsFit, List.forall₂_cons, ih]
      exact ⟨fun h => ⟨slotFits_none, h⟩, fun h => h.2⟩
    | some v :: values => rw [slotsFit, List.forall₂_cons, ih, slotFits_some]

theorem elementsFit_iff {element : Option ModelType} {items : List (Option Element)} :
    elementsFit element items ↔ ∀ item ∈ items, ∀ e, item = some e → e.Fits element := by
  induction items with
  | nil => simp [elementsFit]
  | cons item items ih =>
    cases item with
    | none => simp [elementsFit, ih]
    | some e => simp [elementsFit, ih]

section Adopt

variable {reading : Reading}

/-- Conversion makes no containers and leaves those there are. -/
theorem isObject_mapText (hr : Coercion.IsConversion reading) (v : Json) :
    (v.mapText reading).isObject = v.isObject := by
  cases v with
  | str s =>
    rw [mapText]
    rcases hr [] s with hs | hs
    · rw [hs]
    · rcases hs.bool_or_num with ⟨b, hb⟩ | ⟨n, hn⟩
      · rw [hb]; rfl
      · rw [hn]; rfl
  | _ => simp [mapText, isObject]

theorem isArray_mapText (hr : Coercion.IsConversion reading) (v : Json) :
    (v.mapText reading).isArray = v.isArray := by
  cases v with
  | str s =>
    rw [mapText]
    rcases hr [] s with hs | hs
    · rw [hs]
    · rcases hs.bool_or_num with ⟨b, hb⟩ | ⟨n, hn⟩
      · rw [hb]; rfl
      · rw [hn]; rfl
  | _ => simp [mapText, isArray]

theorem keepsPlain_mapText (hr : Coercion.IsConversion reading) (kind : FieldKind) (v : Json) :
    kind.keepsPlain (v.mapText reading) = kind.keepsPlain v := by
  cases kind <;> simp [FieldKind.keepsPlain, isObject_mapText hr, isArray_mapText hr]

theorem keepsPlainElement_mapText (hr : Coercion.IsConversion reading) (element : Option ModelType)
    (v : Json) : keepsPlainElement element (v.mapText reading) = keepsPlainElement element v := by
  cases element <;> simp [keepsPlainElement, isObject_mapText hr]

/-- What is true of every slot, and of a plain value with the texts in it converted, is true of the slots with
canonical values. -/
theorem forall₂_adoptFields (hr : Coercion.IsConversion reading) {holds : Field → Option FieldValue → Prop}
    (hplain : ∀ field v reading', Coercion.IsConversion reading' → holds field (some (.plain v)) →
      holds field (some (.plain (v.mapText reading'))))
    {canonical : Json} (fields : List Field) (values : List (Option FieldValue))
    (hc : ∀ name v, (name, v) ∈ snapshot fields values →
      canonical.get? name = some (v.mapText (reading.below (.member name))))
    (h : List.Forall₂ holds fields values) : List.Forall₂ holds fields (adoptFields canonical fields values) := by
  induction h with
  | nil => exact .nil
  | @cons field slot fields values hslot _ ih =>
    rw [adoptFields_cons]
    cases slot with
    | none =>
      rw [snapshot] at hc
      exact .cons hslot (ih hc)
    | some v =>
      rw [snapshot] at hc
      have hrest := ih fun name w hw => hc name w (List.mem_cons_of_mem _ hw)
      refine .cons ?_ hrest
      cases v with
      | plain raw =>
        have hhere := hc field.name raw (by rw [FieldValue.toJson]; exact List.mem_cons_self)
        rw [hhere]
        exact hplain field raw _ (hr.below _) hslot
      | model m => exact hslot
      | sequence s => exact hslot

/-- What is true of every element, and of a plain value with the texts in it converted, is true of the canonical
elements. -/
theorem forall_adoptElements (hr : Coercion.IsConversion reading) {holds : Option Element → Prop}
    (hplain : ∀ v reading', Coercion.IsConversion reading' → holds (some (.plain v)) →
      holds (some (.plain (v.mapText reading'))))
    (index : Nat) (items : List (Option Element)) (h : ∀ item ∈ items, holds item) :
    ∀ item ∈ adoptElements (mapTextItems reading index (listing items)) items, holds item := by
  induction items generalizing index with
  | nil => simp [adoptElements]
  | cons item items ih =>
    have hitem := h item List.mem_cons_self
    have hrest := ih (index + 1) fun item hitem => h item (List.mem_cons_of_mem _ hitem)
    rw [adoptElements_cons]
    rcases item with _ | ⟨raw⟩ | ⟨m⟩
    · exact List.forall_mem_cons.mpr ⟨hitem, hrest⟩
    · exact List.forall_mem_cons.mpr ⟨hplain raw _ (hr.below _) hitem, hrest⟩
    · exact List.forall_mem_cons.mpr ⟨hitem, hrest⟩

/-- Canonical values fit where the staged ones did. -/
theorem slotsFit_adoptFields (hr : Coercion.IsConversion reading) {canonical : Json} (fields : List Field)
    (values : List (Option FieldValue))
    (hc : ∀ name v, (name, v) ∈ snapshot fields values →
      canonical.get? name = some (v.mapText (reading.below (.member name))))
    (h : slotsFit fields values) : slotsFit fields (adoptFields canonical fields values) := by
  refine slotsFit_iff.mpr (forall₂_adoptFields hr (fun field v reading' hr' hslot => ?_) fields values hc
    (slotsFit_iff.mp h))
  rw [slotFits_some, FieldValue.Fits] at hslot ⊢
  rwa [keepsPlain_mapText hr']

/-- Canonical elements fit where the staged ones did. -/
theorem elementsFit_adoptElements (hr : Coercion.IsConversion reading) {element : Option ModelType}
    (index : Nat) (items : List (Option Element)) (h : elementsFit element items) :
    elementsFit element (adoptElements (mapTextItems reading index (listing items)) items) := by
  refine elementsFit_iff.mpr (forall_adoptElements hr (fun v reading' hr' hitem e he => ?_) index items
    (elementsFit_iff.mp h))
  obtain rfl := Option.some.inj he
  have hv := hitem _ rfl
  rw [Element.Fits] at hv ⊢
  rwa [keepsPlainElement_mapText hr']

end Adopt

section Preservation

/-- A commit of fitting values makes a sound instance. -/
theorem ModelType.isOf_of_commit {type : ModelType} (hc : (Blueprint.model type).IsReadable)
    {staged : List (Option FieldValue)} (hs : slotsFit type.fields staged) {m : Model}
    (h : type.commit staged = .ok m) : m.IsOf type := by
  have hcommitted := isCommitted_of_commit hc h
  obtain ⟨hnames, reading, hr⟩ := hc
  obtain ⟨canonical, hcheck, rfl⟩ := commit_eq_ok.mp h
  have hcanonical := hr.canonical hcheck
  refine ⟨rfl, hcommitted, Model.isSound_iff.mpr ?_⟩
  exact slotsFit_adoptFields hr.conversion type.fields staged
    (fun name v hv => hcanonical ▸ get_mapText_snapshot hnames hv) hs

/-- A commit of fitting elements makes a sound sequence. -/
theorem SequenceType.isOf_of_commit {type : SequenceType} (hc : (Blueprint.sequence type).IsReadable)
    {staged : List (Option Element)} (hs : elementsFit type.element staged) {s : Sequence}
    (h : type.commit staged = .ok s) : s.IsOf type := by
  have hcommitted := isCommitted_of_commit hc h
  obtain ⟨_, reading, hr⟩ := hc
  obtain ⟨canonical, hcheck, rfl⟩ := commit_eq_ok.mp h
  have hcanonical : canonical.items?.getD [] = mapTextItems reading 0 (listing staged) := by
    rw [hr.canonical hcheck, mapText]
    rfl
  refine ⟨rfl, hcommitted, Sequence.isSound_iff.mpr ?_⟩
  dsimp only
  rw [hcanonical]
  exact elementsFit_adoptElements hr.conversion 0 staged hs

mutual
/-- What is built from plain values is committed and sound. -/
theorem ModelType.isOf_of_build : ∀ {type : ModelType} {data : List (String × Json)} {m : Model},
    type.Throughout Blueprint.IsReadable → type.build data = .ok m → m.IsOf type
  | ⟨id, title, fields, validator, options'⟩, data, m, hc, h => by
    obtain ⟨staged, hstaged, hcommit⟩ := ModelType.build_eq_ok.mp h
    obtain ⟨hself, hfields⟩ := ModelType.throughout_iff.mp hc
    exact ModelType.isOf_of_commit hself (slotsFit_of_buildFields hfields hstaged) hcommit

theorem slotsFit_of_buildFields : ∀ {fields : List Field} {data : List (String × Json)}
    {staged : List (Option FieldValue)},
    (∀ field ∈ fields, field.kind.Throughout Blueprint.IsReadable) → buildFields fields data = .ok staged →
      slotsFit fields staged
  | [], data, staged, hc, h => by
    obtain rfl := Except.ok.inj (buildFields_nil.symm.trans h)
    trivial
  | field :: fields, data, staged, hc, h => by
    obtain ⟨hfirst, hfields⟩ := List.forall_mem_cons.mp hc
    obtain ⟨slot, rest, hslot, hrest, rfl⟩ := buildFields_cons_eq_ok.mp h
    have hfit := slotsFit_of_buildFields hfields hrest
    refine slotsFit_iff.mpr (.cons ?_ (slotsFit_iff.mp hfit))
    cases hmember : data.lookup field.name with
    | none =>
      rw [hmember] at hslot
      obtain rfl := Except.ok.inj hslot
      nofun
    | some v =>
      rw [hmember] at hslot
      obtain ⟨value, hvalue, rfl⟩ := map_eq_ok.mp hslot
      exact slotFits_some.mpr (Field.fits_of_build hfirst hvalue)

theorem Field.fits_of_build : ∀ {field : Field} {v : Json} {value : FieldValue},
    field.kind.Throughout Blueprint.IsReadable → field.build v = .ok value → value.Fits field.kind
  | ⟨name, pointer, kind⟩, v, value, hc, h => by
    rw [Field.build, mapError_eq_ok] at h
    exact FieldKind.fits_of_build hc h

theorem FieldKind.fits_of_build : ∀ {kind : FieldKind} {v : Json} {value : FieldValue},
    kind.Throughout Blueprint.IsReadable → kind.build v = .ok value → value.Fits kind
  | .object type, v, value, hc, h => by
    rw [FieldKind.throughout_object] at hc
    cases v with
    | obj data =>
      rw [FieldKind.build] at h
      obtain ⟨m, hm, rfl⟩ := map_eq_ok.mp h
      exact FieldValue.fits_model.mpr ⟨type, rfl, ModelType.isOf_of_build hc hm⟩
    | _ =>
      obtain rfl : FieldValue.plain _ = value := by simpa [FieldKind.build] using h
      simp [FieldValue.Fits, FieldKind.keepsPlain, Json.isObject]
  | .array type, v, value, hc, h => by
    rw [FieldKind.throughout_array] at hc
    cases v with
    | arr items =>
      rw [FieldKind.build] at h
      obtain ⟨s, hs, rfl⟩ := map_eq_ok.mp h
      exact FieldValue.fits_sequence.mpr ⟨type, rfl, SequenceType.isOf_of_build hc hs⟩
    | _ =>
      obtain rfl : FieldValue.plain _ = value := by simpa [FieldKind.build] using h
      simp [FieldValue.Fits, FieldKind.keepsPlain, Json.isArray]
  | .scalar, v, value, hc, h => by
    obtain rfl : FieldValue.plain v = value := by simpa [FieldKind.build] using h
    simp [FieldValue.Fits, FieldKind.keepsPlain]
  | .union, v, value, hc, h => by
    obtain rfl : FieldValue.plain v = value := by simpa [FieldKind.build] using h
    simp [FieldValue.Fits, FieldKind.keepsPlain]

theorem SequenceType.isOf_of_build : ∀ {type : SequenceType} {items : List Json} {s : Sequence},
    type.Throughout Blueprint.IsReadable → type.build items = .ok s → s.IsOf type
  | ⟨id, element, validator, options'⟩, items, s, hc, h => by
    obtain ⟨elements, helements, hcommit⟩ := SequenceType.build_eq_ok.mp h
    obtain ⟨hself, helement⟩ := SequenceType.throughout_iff.mp hc
    refine SequenceType.isOf_of_commit hself (elementsFit_iff.mpr fun item hitem e he => ?_) hcommit
    obtain ⟨e', he', rfl⟩ := List.mem_map.mp hitem
    obtain rfl := Option.some.inj he
    obtain ⟨⟨v, i⟩, _, hbuild⟩ := exists_of_mem_results helements he'
    exact fits_of_buildElement helement (mapError_eq_ok.mp hbuild)

theorem fits_of_buildElement : ∀ {element : Option ModelType} {v : Json} {e : Element},
    elementThroughout Blueprint.IsReadable element → buildElement element v = .ok e → e.Fits element
  | some type, v, e, hc, h => by
    rw [elementThroughout_some] at hc
    cases v with
    | obj data =>
      rw [buildElement] at h
      obtain ⟨m, hm, rfl⟩ := map_eq_ok.mp h
      exact Element.fits_model.mpr ⟨type, rfl, ModelType.isOf_of_build hc hm⟩
    | _ =>
      obtain rfl : Element.plain _ = e := by simpa [buildElement] using h
      simp [Element.Fits, keepsPlainElement, Json.isObject]
  | none, v, e, hc, h => by
    obtain rfl : Element.plain v = e := by simpa [buildElement] using h
    simp [Element.Fits, keepsPlainElement]
end

mutual
/-- What comes of reading plain values into a sound instance is committed and sound. -/
theorem Model.isOf_of_merge : ∀ {m : Model} {data : List (String × Json)} {after : Model},
    m.type.Throughout Blueprint.IsReadable → m.IsSound → m.merge data = .ok after → after.IsOf m.type
  | ⟨type, values⟩, data, after, hc, hs, h => by
    obtain ⟨staged, hstaged, hcommit⟩ := Model.merge_eq_ok.mp h
    obtain ⟨hself, hkinds⟩ := ModelType.throughout_iff.mp hc
    rw [Model.IsSound] at hs
    exact ModelType.isOf_of_commit hself (slotsFit_of_mergeFields hkinds hs hstaged) hcommit

theorem slotsFit_of_mergeFields : ∀ {fields : List Field} {values : List (Option FieldValue)}
    {data : List (String × Json)} {staged : List (Option FieldValue)},
    (∀ field ∈ fields, field.kind.Throughout Blueprint.IsReadable) → slotsFit fields values →
    mergeFields fields values data = .ok staged → slotsFit fields staged
  | [], [], data, staged, hc, hs, h => by
    obtain rfl := Except.ok.inj (mergeFields_nil_left.symm.trans h)
    trivial
  | field :: fields, current :: values, data, staged, hc, hs, h => by
    have hcurrent : SlotFits field.kind current ∧ slotsFit fields values := by
      rw [slotsFit_iff, List.forall₂_cons] at hs
      exact ⟨hs.1, slotsFit_iff.mpr hs.2⟩
    have hfields : ∀ field ∈ fields, field.kind.Throughout Blueprint.IsReadable :=
      fun field hf => hc field (List.mem_cons_of_mem _ hf)
    obtain ⟨slot, rest, hslot, hrest, rfl⟩ := mergeFields_cons_eq_ok.mp h
    have hfit := slotsFit_of_mergeFields hfields hcurrent.2 hrest
    refine slotsFit_iff.mpr (.cons ?_ (slotsFit_iff.mp hfit))
    cases hmember : data.lookup field.name with
    | none =>
      rw [hmember] at hslot
      obtain rfl := Except.ok.inj hslot
      exact hcurrent.1
    | some v =>
      rw [hmember] at hslot
      obtain ⟨value, hvalue, rfl⟩ := map_eq_ok.mp hslot
      exact slotFits_some.mpr (fits_of_mergeValue (hc field List.mem_cons_self) hcurrent.1 hvalue)
  | [], _ :: _, _, _, _, hs, _ => by simp [slotsFit] at hs
  | _ :: _, [], _, _, _, hs, _ => by simp [slotsFit] at hs

theorem fits_of_mergeValue : ∀ {kind : FieldKind} {current : Option FieldValue} {v : Json}
    {value : FieldValue}, kind.Throughout Blueprint.IsReadable → SlotFits kind current →
    mergeValue kind current v = .ok value → value.Fits kind
  | .object type, some (.model m), v, value, hc, hs, h => by
    cases v with
    | obj data =>
      rw [mergeValue] at h
      obtain ⟨after, hafter, rfl⟩ := map_eq_ok.mp h
      obtain ⟨type', heq, rfl, _, hsound⟩ := FieldValue.fits_model.mp (slotFits_some.mp hs)
      obtain rfl := FieldKind.object.inj heq
      rw [FieldKind.throughout_object] at hc
      exact FieldValue.fits_model.mpr ⟨m.type, rfl, Model.isOf_of_merge hc hsound hafter⟩
    | _ =>
      simp only [mergeValue] at h
      exact FieldKind.fits_of_build hc h
  | .object type, some (.plain _), v, value, hc, hs, h
  | .object type, some (.sequence _), v, value, hc, hs, h
  | .object type, none, v, value, hc, hs, h => by
    simp only [mergeValue] at h
    exact FieldKind.fits_of_build hc h
  | .array _, _, v, value, hc, hs, h
  | .scalar, _, v, value, hc, hs, h
  | .union, _, v, value, hc, hs, h => by
    simp only [mergeValue] at h
    exact FieldKind.fits_of_build hc h
end

end Preservation
end SchemaBound
