import SchemaBound.Proofs.Blueprint.Throughout
import SchemaBound.Proofs.Coercion.Leafwise
import SchemaBound.Proofs.Instance.Writes

/-! What a commit stores is committed: committing it once more is accepted and changes nothing. -/
namespace SchemaBound
open Json

/-- The check reads the texts of a value one by one; its verdict and the canonical value depend on what
it has read. -/
structure ReadsBy (check : Json → Except (List Violation) Json) (reading : Reading) : Prop where
  conversion : Coercion.IsConversion reading
  canonical {v canonical : Json} : check v = .ok canonical → canonical = v.mapText reading
  congr {v w : Json} : v.mapText reading = w.mapText reading → check v = check w

section Checks

variable {judge : Json → Json → List Violation} {options : Options}

/-- The value that is judged. -/
theorem exists_reading_candidate (options : Options) (node : Json) :
    ∃ reading, Coercion.IsConversion reading ∧
      ∀ v, (if options.coerce then Coercion.coerce node v else v) = v.mapText reading := by
  by_cases hc : options.coerce
  · obtain ⟨reading, hr, hv⟩ := Coercion.leafwise_coerce node
    exact ⟨reading, hr, fun v => by rw [if_pos hc, hv]⟩
  · exact ⟨.verbatim, Coercion.isConversion_verbatim, fun v => by rw [if_neg hc, mapText_verbatim]⟩

theorem IsJudgedBy.exists_readsBy {validator : Validator} (h : IsJudgedBy judge validator)
    (options : Options) : ∃ reading, ReadsBy (validator options) reading := by
  obtain ⟨node, rfl⟩ := h
  obtain ⟨reading, hr, hv⟩ := exists_reading_candidate options node
  refine ⟨reading, hr, ?_, ?_⟩
  · intro v canonical h
    unfold Engine.validatorBy at h
    dsimp only at h
    rw [hv] at h
    split at h
    · exact (Except.ok.inj h).symm
    · cases h
  · intro v w hvw
    unfold Engine.validatorBy
    dsimp only
    rw [hv, hv, hvw]

/-- A check that gives back what it accepts reads every text as that text. -/
theorem readsBy_verbatim {check : Json → Except (List Violation) Json}
    (h : ∀ {v canonical : Json}, check v = .ok canonical → canonical = v) : ReadsBy check .verbatim := by
  refine ⟨Coercion.isConversion_verbatim, fun {v canonical} hcheck => ?_, fun {v w} hvw => ?_⟩
  · rw [mapText_verbatim, h hcheck]
  · rw [mapText_verbatim, mapText_verbatim] at hvw
    rw [hvw]

/-- The check reads texts one by one, and no two fields share a name. -/
structure Blueprint.IsReadable (type : Blueprint) : Prop where
  names : type.HasDistinctNames
  readsBy : ∃ reading, ReadsBy type.check reading

theorem Blueprint.IsVerbatim.isReadable {type : Blueprint} (h : type.IsVerbatim) : type.IsReadable :=
  ⟨h.names, .verbatim, readsBy_verbatim h.verbatim⟩

theorem Blueprint.IsChecked.isReadable {type : Blueprint} (h : type.IsChecked judge options) :
    type.IsReadable := by
  cases type with
  | model type =>
    obtain ⟨_, hjudged, hnames, _⟩ := ModelType.isChecked_iff.mp h
    exact ⟨hnames, hjudged.exists_readsBy type.options⟩
  | sequence type =>
    obtain ⟨_, hjudged, _⟩ := SequenceType.isChecked_iff.mp h
    exact ⟨List.nodup_nil, hjudged.exists_readsBy type.options⟩

theorem ModelType.IsChecked.isReadable {type : ModelType} (h : type.IsChecked judge options) :
    type.Throughout Blueprint.IsReadable :=
  h.throughout.mono fun _ hpart => hpart.isReadable

theorem SequenceType.IsChecked.isReadable {type : SequenceType} (h : type.IsChecked judge options) :
    type.Throughout Blueprint.IsReadable :=
  h.throughout.mono fun _ hpart => hpart.isReadable

theorem FieldKind.IsChecked.isReadable {kind : FieldKind} (h : kind.IsChecked judge options) :
    kind.Throughout Blueprint.IsReadable :=
  h.throughout.mono fun _ hpart => hpart.isReadable

theorem elementIsChecked.isReadable {element : Option ModelType} (h : elementIsChecked judge options element) :
    elementThroughout Blueprint.IsReadable element :=
  h.throughout.mono fun _ hpart => hpart.isReadable

end Checks

section Fields

variable {reading : Reading}

/-- What stands at a position after canonical values are adopted. -/
theorem getElem?_adoptFields (canonical : Json) {fields : List Field} {values : List (Option FieldValue)} {i : Nat}
    {field : Field} (hfield : fields[i]? = some field) :
    (adoptFields canonical fields values)[i]? =
      values[i]?.map (Option.map (FieldValue.adopt (canonical.get? field.name))) := by
  induction fields generalizing values i with
  | nil => cases hfield
  | cons first fields ih =>
    cases values with
    | nil => simp
    | cons current values =>
      rw [adoptFields_cons]
      cases i with
      | zero =>
        obtain rfl := Option.some.inj hfield
        rfl
      | succ i => exact ih hfield

theorem sublist_names_snapshot (fields : List Field) (values : List (Option FieldValue)) :
    ((snapshot fields values).map (·.1)).Sublist (fields.map Field.name) := by
  induction fields generalizing values with
  | nil => simp [snapshot]
  | cons field fields ih =>
    match values with
    | [] => simp [snapshot]
    | none :: values =>
      rw [snapshot]
      exact (ih values).cons _
    | some v :: values =>
      rw [snapshot]
      exact (ih values).cons_cons _

theorem lookup_snapshot_eq_none {name : String} {fields : List Field} (h : name ∉ fields.map Field.name)
    (values : List (Option FieldValue)) : (snapshot fields values).lookup name = none := by
  refine List.lookup_eq_none_iff.mpr fun member hmember => ?_
  have hmem := (sublist_names_snapshot fields values).subset (List.mem_map_of_mem hmember)
  rw [bne_iff_ne]
  rintro rfl
  exact h hmem

theorem lookup_snapshot_cons_ne {name : String} {field : Field} (h : field.name ≠ name) (fields : List Field)
    (current : Option FieldValue) (values : List (Option FieldValue)) :
    (snapshot (field :: fields) (current :: values)).lookup name = (snapshot fields values).lookup name := by
  cases current with
  | none => rw [snapshot]
  | some v => rw [snapshot, List.lookup_cons, beq_eq_false_iff_ne.mpr (Ne.symm h)]

/-- Each field has its value under its name, if it is set. -/
theorem forall₂_lookup_snapshot {fields : List Field} (hn : (fields.map Field.name).Nodup)
    {values : List (Option FieldValue)} (hlength : values.length = fields.length) :
    List.Forall₂ (fun field slot => (snapshot fields values).lookup field.name = slot.map FieldValue.toJson)
      fields values := by
  induction fields generalizing values with
  | nil =>
    obtain rfl := List.length_eq_zero_iff.mp hlength
    exact .nil
  | cons field fields ih =>
    cases values with
    | nil => simp at hlength
    | cons current values =>
      rw [List.map_cons, List.nodup_cons] at hn
      have hshort : values.length = fields.length := by simpa using hlength
      refine .cons ?_ ?_
      · cases current with
        | none =>
          rw [snapshot, lookup_snapshot_eq_none hn.1]
          rfl
        | some v => simp [snapshot]
      · have hother : ∀ other ∈ fields, field.name ≠ other.name :=
          fun other hmem heq => hn.1 (heq ▸ List.mem_map_of_mem hmem)
        refine (List.forall₂_and_left _ _ |>.mpr ⟨hother, ih hn.2 hshort⟩).imp fun other slot ⟨hne, hslot⟩ => ?_
        rw [lookup_snapshot_cons_ne hne, hslot]

/-- The canonical object holds the reading of every member under its name. -/
theorem get_mapText_snapshot {fields : List Field} (hn : (fields.map Field.name).Nodup)
    {values : List (Option FieldValue)} {name : String} {v : Json} (h : (name, v) ∈ snapshot fields values) :
    ((Json.obj (snapshot fields values)).mapText reading).get? name =
      some (v.mapText (reading.below (.member name))) := by
  have hlookup := lookup_of_mem (hn.sublist (sublist_names_snapshot fields values)) h
  rw [mapText, Json.get?, lookup_mapTextMembers, hlookup, Option.map_some]

/-- Adopting canonical values twice is adopting them once. -/
theorem adoptFields_adoptFields (canonical : Json) (fields : List Field)
    (values : List (Option FieldValue)) :
    adoptFields canonical fields (adoptFields canonical fields values) =
      adoptFields canonical fields values := by
  induction fields generalizing values with
  | nil => simp
  | cons field fields ih =>
    cases values with
    | nil => simp
    | cons current values =>
      rw [adoptFields_cons, adoptFields_cons, ih]
      cases current with
      | none => rfl
      | some v => rw [Option.map_some, Option.map_some, FieldValue.adopt_adopt]

/-- Where the canonical object holds the readings of all members, the adopted members read as the staged
ones did. -/
theorem mapTextMembers_snapshot_adoptFields (hr : reading.Settling) {canonical : Json}
    (fields : List Field) (values : List (Option FieldValue))
    (hc : ∀ name v, (name, v) ∈ snapshot fields values →
      canonical.get? name = some (v.mapText (reading.below (.member name)))) :
    mapTextMembers reading (snapshot fields (adoptFields canonical fields values)) =
      mapTextMembers reading (snapshot fields values) := by
  induction fields generalizing values with
  | nil => simp [snapshot]
  | cons field fields ih =>
    cases values with
    | nil => simp
    | cons current values =>
      rw [adoptFields_cons]
      cases current with
      | none =>
        rw [snapshot] at hc ⊢
        exact ih values hc
      | some v =>
        rw [snapshot] at hc
        have hrest := ih values fun name w hw => hc name w (List.mem_cons_of_mem _ hw)
        have hhere := hc field.name v.toJson List.mem_cons_self
        rw [Option.map_some, snapshot, snapshot, mapTextMembers, mapTextMembers, hrest, hhere]
        cases v with
        | plain raw => rw [FieldValue.adopt, Option.getD_some, FieldValue.toJson, FieldValue.toJson,
            mapText_idem (hr.below _)]
        | _ => rfl

end Fields

section Elements

variable {reading : Reading}

/-- What stands at a position after canonical elements are adopted. -/
theorem getElem?_adoptElements (canonical : List Json) (items : List (Option Element)) (i : Nat) :
    (adoptElements canonical items)[i]? = items[i]?.map (Option.map (Element.adopt canonical[i]?)) := by
  induction items generalizing canonical i with
  | nil => simp [adoptElements]
  | cons item items ih =>
    rw [adoptElements_cons]
    cases i with
    | zero => cases canonical <;> rfl
    | succ i =>
      have htail : canonical.tail[i]? = canonical[i + 1]? := by cases canonical <;> simp
      rw [List.getElem?_cons_succ, List.getElem?_cons_succ, ih, htail]

/-- Adopting canonical elements twice is adopting them once. -/
theorem adoptElements_adoptElements (canonical : List Json) (items : List (Option Element)) :
    adoptElements canonical (adoptElements canonical items) = adoptElements canonical items := by
  induction items generalizing canonical with
  | nil => simp [adoptElements]
  | cons item items ih =>
    rw [adoptElements_cons, adoptElements_cons, ih]
    cases item with
    | none => rfl
    | some e => rw [Option.map_some, Option.map_some, Element.adopt_adopt]

/-- The adopted elements read as the staged ones did. -/
theorem mapTextItems_listing_adoptElements (hr : reading.Settling) (index : Nat)
    (items : List (Option Element)) :
    mapTextItems reading index
        (listing (adoptElements (mapTextItems reading index (listing items)) items)) =
      mapTextItems reading index (listing items) := by
  induction items generalizing index with
  | nil => simp [adoptElements, listing]
  | cons item items ih =>
    rw [adoptElements_cons]
    rcases item with _ | ⟨raw⟩ | ⟨m⟩
    · simp only [listing, mapTextItems, List.tail_cons, Option.map_none, ih]
    · simp only [listing, mapTextItems, Element.toJson, Element.adopt, List.head?_cons, List.tail_cons,
        Option.map_some, Option.getD_some, ih]
      rw [mapText_idem (hr.below _)]
    · simp only [listing, mapTextItems, Element.adopt, List.tail_cons, Option.map_some, ih]

end Elements

/-- A commit of what the model holds is accepted and changes nothing. -/
def Model.IsCommitted (m : Model) : Prop := m.type.commit m.values = .ok m

/-- A commit of what the sequence holds is accepted and changes nothing. -/
def Sequence.IsCommitted (s : Sequence) : Prop := s.type.commit s.items = .ok s

namespace ModelType

variable {type : ModelType} {staged : List (Option FieldValue)} {m : Model}

theorem commit_eq_ok : type.commit staged = .ok m ↔
    ∃ canonical, type.check (.obj (snapshot type.fields staged)) = .ok canonical ∧
      m = ⟨type, adoptFields canonical type.fields staged⟩ := by
  unfold commit
  cases type.check (.obj (snapshot type.fields staged)) with
  | ok canonical => simp [eq_comm]
  | error violations => simp

theorem IsChecked.exists_readsBy {judge : Json → Json → List Violation} {options : Options}
    (h : type.IsChecked judge options) : ∃ reading, ReadsBy type.check reading :=
  h.isReadable.self.readsBy

section Readable

variable (hc : (Blueprint.model type).IsReadable)
include hc

/-- The check takes what a commit stores for what was staged. -/
theorem check_stored (h : type.commit staged = .ok m) :
    type.check (.obj (snapshot type.fields m.values)) = type.check (.obj (snapshot type.fields staged)) := by
  obtain ⟨hnames, reading, hr⟩ := hc
  obtain ⟨canonical, hcheck, rfl⟩ := commit_eq_ok.mp h
  have hcanonical := hr.canonical hcheck
  have hmembers := mapTextMembers_snapshot_adoptFields hr.conversion.settling type.fields staged
    fun name v hv => hcanonical ▸ get_mapText_snapshot hnames hv
  have hread : (Json.obj (snapshot type.fields (adoptFields canonical type.fields staged))).mapText reading =
      (Json.obj (snapshot type.fields staged)).mapText reading := by
    rw [mapText, mapText, hmembers]
  exact hr.congr hread

/-- What a commit makes is committed. -/
theorem isCommitted_of_commit (h : type.commit staged = .ok m) : m.IsCommitted := by
  have hsame := check_stored hc h
  obtain ⟨canonical, hcheck, rfl⟩ := commit_eq_ok.mp h
  refine commit_eq_ok.mpr ⟨canonical, ?_, ?_⟩
  · exact hsame.trans hcheck
  · rw [adoptFields_adoptFields]

end Readable

theorem check_snapshot_of_commit {judge : Json → Json → List Violation} {options : Options}
    (hc : type.IsChecked judge options) (h : type.commit staged = .ok m) :
    type.check (.obj (snapshot type.fields m.values)) = type.check (.obj (snapshot type.fields staged)) :=
  check_stored hc.isReadable.self h

end ModelType

namespace SequenceType

variable {type : SequenceType} {staged : List (Option Element)} {s : Sequence}

theorem commit_eq_ok : type.commit staged = .ok s ↔
    ∃ canonical, type.check (.arr (listing staged)) = .ok canonical ∧
      s = ⟨type, adoptElements (canonical.items?.getD []) staged⟩ := by
  unfold commit
  cases type.check (.arr (listing staged)) with
  | ok canonical => simp [eq_comm]
  | error violations => simp

theorem type_of_commit (h : type.commit staged = .ok s) : s.type = type := by
  obtain ⟨canonical, _, rfl⟩ := commit_eq_ok.mp h
  rfl

theorem IsChecked.exists_readsBy {judge : Json → Json → List Violation} {options : Options}
    (h : type.IsChecked judge options) : ∃ reading, ReadsBy type.check reading :=
  h.isReadable.self.readsBy

variable (hc : (Blueprint.sequence type).IsReadable)
include hc

/-- The check takes what a commit stores for what was staged. -/
theorem check_stored (h : type.commit staged = .ok s) :
    type.check (.arr (listing s.items)) = type.check (.arr (listing staged)) := by
  obtain ⟨_, reading, hr⟩ := hc
  obtain ⟨canonical, hcheck, rfl⟩ := commit_eq_ok.mp h
  have hcanonical : canonical.items?.getD [] = mapTextItems reading 0 (listing staged) := by
    rw [hr.canonical hcheck, mapText]
    rfl
  have hread : (Json.arr (listing (adoptElements (canonical.items?.getD []) staged))).mapText reading =
      (Json.arr (listing staged)).mapText reading := by
    rw [mapText, mapText, hcanonical, mapTextItems_listing_adoptElements hr.conversion.settling]
  exact hr.congr hread

/-- What a commit makes is committed. -/
theorem isCommitted_of_commit (h : type.commit staged = .ok s) : s.IsCommitted := by
  have hsame := check_stored hc h
  obtain ⟨canonical, hcheck, rfl⟩ := commit_eq_ok.mp h
  refine commit_eq_ok.mpr ⟨canonical, ?_, ?_⟩
  · exact hsame.trans hcheck
  · rw [adoptElements_adoptElements]

end SequenceType

theorem Model.toJson_eq (m : Model) : m.toJson = .obj (snapshot m.type.fields m.values) := by
  obtain ⟨type, values⟩ := m
  rw [toJson]

theorem Sequence.toJson_eq (s : Sequence) : s.toJson = .arr (listing s.items) := by
  obtain ⟨type, items⟩ := s
  rw [toJson]

/-- The type of a committed model accepts its value. -/
theorem Model.IsCommitted.check {m : Model} (h : m.IsCommitted) :
    ∃ canonical, m.type.check m.toJson = .ok canonical := by
  obtain ⟨canonical, hcheck, _⟩ := ModelType.commit_eq_ok.mp h
  exact ⟨canonical, m.toJson_eq ▸ hcheck⟩

/-- The type of a committed sequence accepts its value. -/
theorem Sequence.IsCommitted.check {s : Sequence} (h : s.IsCommitted) :
    ∃ canonical, s.type.check s.toJson = .ok canonical := by
  obtain ⟨canonical, hcheck, _⟩ := SequenceType.commit_eq_ok.mp h
  exact ⟨canonical, s.toJson_eq ▸ hcheck⟩

end SchemaBound
