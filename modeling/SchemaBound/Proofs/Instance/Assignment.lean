import SchemaBound.Proofs.Instance.Commit

/-! Assigning fields one after another against reading an object in one step. An assignment is an update of one
member. Each one commits, and so stores every plain value as the check reads it, but the check reads what it has
read as it is: whether the values were read in between is all the same to the commits that follow. -/
namespace SchemaBound
open Json Success

section Single

variable {fields : List Field} {values : List (Option FieldValue)} {data : List (String × Json)}

theorem mergeFields_of_unnamed (hlength : values.length = fields.length)
    (h : ∀ field ∈ fields, data.lookup field.name = none) : mergeFields fields values data = .ok values := by
  induction fields generalizing values with
  | nil =>
    obtain rfl := List.length_eq_zero_iff.mp hlength
    exact mergeFields_nil_left
  | cons field fields ih =>
    cases values with
    | nil => simp at hlength
    | cons current values =>
      obtain ⟨hhere, hrest⟩ := List.forall_mem_cons.mp h
      rw [mergeFields, hhere, ih (by simpa using hlength) hrest]
      rfl

/-- Two objects with the same members for all fields make the same values. -/
theorem mergeFields_congr {other : List (String × Json)}
    (h : ∀ field ∈ fields, data.lookup field.name = other.lookup field.name) :
    mergeFields fields values data = mergeFields fields values other := by
  induction fields generalizing values with
  | nil => rw [mergeFields_nil_left, mergeFields_nil_left]
  | cons field fields ih =>
    cases values with
    | nil => rw [mergeFields_nil_right, mergeFields_nil_right]
    | cons current values =>
      obtain ⟨hhere, hrest⟩ := List.forall_mem_cons.mp h
      rw [mergeFields, mergeFields, hhere, ih hrest]

/-- Staging a plain value for a declared name changes one slot just as reading an object with one member does. -/
theorem changeField_eq_mergeFields {name : String} {v : Json} (hn : (fields.map Field.name).Nodup)
    (hlength : values.length = fields.length) (hname : name ∈ fields.map Field.name) :
    (changeField name (fun field current => do
      let value ← (field.kind.stage current (.plain v)).mapError (·.under (Pointer.child name))
      return ((), some value)) fields values).map (·.2) = mergeFields fields values [(name, v)] := by
  induction fields generalizing values with
  | nil => cases hname
  | cons field fields ih =>
    cases values with
    | nil => simp at hlength
    | cons current values =>
      rw [List.map_cons, List.nodup_cons] at hn
      have hshort : values.length = fields.length := by simpa using hlength
      rw [changeField, mergeFields]
      by_cases hhere : field.name = name
      · subst hhere
        have hothers : mergeFields fields values [(field.name, v)] = .ok values := by
          refine mergeFields_of_unnamed hshort fun other hmem => ?_
          have hne : other.name ≠ field.name := fun heq => hn.1 (heq ▸ List.mem_map_of_mem hmem)
          simp [List.lookup_cons, beq_eq_false_iff_ne.mpr hne]
        rw [if_pos rfl, List.lookup_cons_self, hothers, FieldKind.stage]
        dsimp only
        cases mergeValue field.kind current v <;> rfl
      · have hlater : name ∈ fields.map Field.name :=
          (List.mem_cons.mp hname).resolve_left (Ne.symm hhere)
        have hnone : [(name, v)].lookup field.name = none := by
          simp [List.lookup_cons, beq_eq_false_iff_ne.mpr hhere]
        rw [if_neg hhere, hnone, ← ih hn.2 hshort hlater]
        dsimp only
        generalize changeField name _ fields values = changed
        cases changed <;> rfl

/-- An assignment to a declared field is an update of one member, in what it makes and in why it is refused. -/
theorem Model.set_eq_merge {m : Model} (hn : (m.type.fields.map Field.name).Nodup) (hm : m.IsAligned)
    {name : String} (hname : name ∈ m.type.fields.map Field.name) (v : Json) :
    m.set name (.plain v) = m.merge [(name, v)] := by
  obtain ⟨type, values⟩ := m
  rw [Model.merge, ← changeField_eq_mergeFields hn hm hname, Model.set, Model.change]
  dsimp only
  generalize changeField name _ type.fields values = changed
  cases changed with
  | error e => rfl
  | ok result =>
    simp only [Except.map, bind, Except.bind]
    cases type.commit result.2 <;> rfl

end Single

/-- A plain value as a check reads it. Instances have been read by checks of their own. -/
def FieldValue.read (reading : Reading) : FieldValue → FieldValue
  | .plain raw => .plain (raw.mapText reading)
  | v => v

/-- What fields hold, with each plain value as the check of the whole reads it. -/
def readFields (reading : Reading) (fields : List Field) (values : List (Option FieldValue)) :
    List (Option FieldValue) :=
  List.zipWith (fun field slot => slot.map (FieldValue.read (reading.below (.member field.name)))) fields values

section Read

variable {reading : Reading}

theorem readFields_cons (field : Field) (fields : List Field) (current : Option FieldValue)
    (values : List (Option FieldValue)) :
    readFields reading (field :: fields) (current :: values) =
      current.map (FieldValue.read (reading.below (.member field.name))) :: readFields reading fields values := rfl

theorem FieldValue.read_read (hr : reading.Settling) (v : FieldValue) :
    FieldValue.read reading (FieldValue.read reading v) = FieldValue.read reading v := by
  cases v with
  | plain raw => rw [read, read, mapText_idem hr]
  | model m => rfl
  | sequence s => rfl

/-- What is made of a value does not depend on how the plain value before it is read. -/
theorem mergeValue_read (kind : FieldKind) (current : Option FieldValue) (v : Json) :
    mergeValue kind (current.map (FieldValue.read reading)) v = mergeValue kind current v := by
  rcases current with _ | ⟨raw⟩ | ⟨m⟩ | ⟨s⟩
  · rfl
  · cases kind <;> simp [FieldValue.read, mergeValue]
  · rfl
  · rfl

/-- Adopting a canonical object with the readings of all members is reading them. -/
theorem adoptFields_eq_readFields {canonical : Json} (fields : List Field) (values : List (Option FieldValue))
    (hc : ∀ name v, (name, v) ∈ snapshot fields values →
      canonical.get? name = some (v.mapText (reading.below (.member name)))) :
    adoptFields canonical fields values = readFields reading fields values := by
  induction fields generalizing values with
  | nil => simp [readFields]
  | cons field fields ih =>
    cases values with
    | nil => simp [readFields]
    | cons current values =>
      rw [adoptFields_cons, readFields_cons]
      cases current with
      | none =>
        rw [snapshot] at hc
        rw [ih values hc]
        rfl
      | some v =>
        rw [snapshot] at hc
        rw [ih values fun name w hw => hc name w (List.mem_cons_of_mem _ hw),
          hc field.name v.toJson List.mem_cons_self]
        cases v <;> rfl

theorem readFields_eq_adoptFields {fields : List Field} (hn : (fields.map Field.name).Nodup)
    (values : List (Option FieldValue)) :
    readFields reading fields values =
      adoptFields ((Json.obj (snapshot fields values)).mapText reading) fields values :=
  (adoptFields_eq_readFields fields values fun _ _ hv => get_mapText_snapshot hn hv).symm

/-- Values that were read already are read as they are. -/
theorem mapText_snapshot_readFields (hr : reading.Settling) {fields : List Field}
    (hn : (fields.map Field.name).Nodup) (values : List (Option FieldValue)) :
    (Json.obj (snapshot fields (readFields reading fields values))).mapText reading =
      (Json.obj (snapshot fields values)).mapText reading := by
  rw [readFields_eq_adoptFields hn, mapText,
    mapTextMembers_snapshot_adoptFields hr fields values fun _ _ hv => get_mapText_snapshot hn hv, mapText]

/-- A commit of values that were read already makes what a commit of the values makes. -/
theorem ModelType.commit_readFields {type : ModelType} (hn : (type.fields.map Field.name).Nodup)
    (hr : ReadsBy type.check reading) (staged : List (Option FieldValue)) :
    type.commit (readFields reading type.fields staged) = type.commit staged := by
  have hread := mapText_snapshot_readFields hr.conversion.settling hn staged
  have hcheck := hr.congr hread
  unfold commit
  rw [hcheck]
  cases h : type.check (.obj (snapshot type.fields staged)) with
  | error violations => rfl
  | ok canonical =>
    dsimp only
    rw [hr.canonical h, readFields_eq_adoptFields hn, adoptFields_adoptFields]

/-- What a commit stores is what was staged, as the check reads it. -/
theorem ModelType.values_of_commit {type : ModelType} (hn : (type.fields.map Field.name).Nodup)
    (hr : ReadsBy type.check reading) {staged : List (Option FieldValue)} {m : Model}
    (h : type.commit staged = .ok m) : m = ⟨type, readFields reading type.fields staged⟩ := by
  obtain ⟨canonical, hcheck, rfl⟩ := commit_eq_ok.mp h
  rw [hr.canonical hcheck, readFields_eq_adoptFields hn]

/-- A member is read into a value in the same way before and after this is read. -/
theorem exists_mergeSlot_of_read (hr : reading.Settling) {kind : FieldKind} {current slot : Option FieldValue}
    {member : Option Json} (h : mergeSlot kind (current.map (FieldValue.read reading)) member = .ok slot) :
    ∃ slot', mergeSlot kind current member = .ok slot' ∧
      slot'.map (FieldValue.read reading) = slot.map (FieldValue.read reading) := by
  cases member with
  | none =>
    obtain rfl := Except.ok.inj h
    refine ⟨current, rfl, ?_⟩
    cases current with
    | none => rfl
    | some v => rw [Option.map_some, Option.map_some, FieldValue.read_read hr]
  | some v =>
    rw [mergeSlot, mergeValue_read] at h
    exact ⟨slot, h, rfl⟩

/-- An object is read into values in the same way before and after these are read. -/
theorem exists_mergeFields_of_readFields (hr : reading.Settling) {fields : List Field}
    {values staged : List (Option FieldValue)} {data : List (String × Json)}
    (h : mergeFields fields (readFields reading fields values) data = .ok staged) :
    ∃ staged', mergeFields fields values data = .ok staged' ∧
      readFields reading fields staged' = readFields reading fields staged := by
  induction fields generalizing values staged with
  | nil => exact ⟨[], mergeFields_nil_left, rfl⟩
  | cons field fields ih =>
    cases values with
    | nil =>
      obtain rfl := Except.ok.inj (mergeFields_nil_right.symm.trans h)
      exact ⟨[], mergeFields_nil_right, rfl⟩
    | cons current values =>
      rw [readFields_cons] at h
      obtain ⟨slot, rest, hslot, hrest, rfl⟩ := mergeFields_cons_eq_ok.mp h
      obtain ⟨slot', hslot', hhere⟩ := exists_mergeSlot_of_read (hr.below _) hslot
      obtain ⟨rest', hrest', hsame⟩ := ih hrest
      refine ⟨slot' :: rest', mergeFields_cons_eq_ok.mpr ⟨slot', rest', hslot', hrest', rfl⟩, ?_⟩
      rw [readFields_cons, readFields_cons, hhere, hsame]

end Read

/-- Reading two objects that have no name in common one after the other is reading them as one. -/
theorem mergeFields_append {fields : List Field} {values between staged : List (Option FieldValue)}
    {data more : List (String × Json)}
    (hdisjoint : ∀ name, data.lookup name = none ∨ more.lookup name = none)
    (hfirst : mergeFields fields values data = .ok between)
    (hsecond : mergeFields fields between more = .ok staged) :
    mergeFields fields values (data ++ more) = .ok staged := by
  induction fields generalizing values between staged with
  | nil => rw [← hsecond, mergeFields_nil_left, mergeFields_nil_left]
  | cons field fields ih =>
    cases values with
    | nil =>
      obtain rfl := Except.ok.inj (mergeFields_nil_right.symm.trans hfirst)
      rw [← hsecond, mergeFields_nil_right, mergeFields_nil_right]
    | cons current values =>
      obtain ⟨slot, rest, hslot, hrest, rfl⟩ := mergeFields_cons_eq_ok.mp hfirst
      obtain ⟨slot', rest', hslot', hrest', rfl⟩ := mergeFields_cons_eq_ok.mp hsecond
      refine mergeFields_cons_eq_ok.mpr ⟨slot', rest', ?_, ih hrest hrest', rfl⟩
      rw [List.lookup_append]
      -- a field takes a member of the first object or of the second one, never of both
      cases hdata : data.lookup field.name with
      | none =>
        rw [hdata] at hslot
        obtain rfl := Except.ok.inj hslot
        rwa [Option.none_or]
      | some v =>
        have hmore : more.lookup field.name = none :=
          (hdisjoint field.name).resolve_left (by simp [hdata])
        rw [hmore] at hslot'
        obtain rfl := Except.ok.inj hslot'
        rwa [Option.some_or, ← hdata]

namespace Model

variable {m between last : Model}

/-- Two updates that have no name in common make together what they make one after the other. -/
theorem merge_append (hc : (Blueprint.model m.type).IsReadable) {data more : List (String × Json)}
    (hdisjoint : ∀ name, data.lookup name = none ∨ more.lookup name = none)
    (hfirst : m.merge data = .ok between) (hsecond : between.merge more = .ok last) :
    m.merge (data ++ more) = .ok last := by
  obtain ⟨hnames, reading, hr⟩ := hc
  obtain ⟨first, hmerge, hcommit⟩ := merge_eq_ok.mp hfirst
  obtain rfl := ModelType.values_of_commit hnames hr hcommit
  obtain ⟨second, hsecond, hlast⟩ := merge_eq_ok.mp hsecond
  obtain ⟨staged, hstaged, hsame⟩ := exists_mergeFields_of_readFields hr.conversion.settling hsecond
  refine merge_eq_ok.mpr ⟨staged, mergeFields_append hdisjoint hmerge hstaged, ?_⟩
  calc m.type.commit staged
    _ = m.type.commit (readFields reading m.type.fields staged) := (ModelType.commit_readFields hnames hr staged).symm
    _ = m.type.commit (readFields reading m.type.fields second) := by rw [hsame]
    _ = m.type.commit second := ModelType.commit_readFields hnames hr second
    _ = .ok last := hlast

theorem merge_of_perm {data other : List (String × Json)} (h : data.Perm other)
    (hn : (data.map (·.1)).Nodup) : m.merge data = m.merge other := by
  obtain ⟨type, values⟩ := m
  rw [merge, merge, mergeFields_congr fun field _ => lookup_of_perm h hn field.name]

/-- Assigns one member after another. -/
def assignEach (m : Model) (members : List (String × Json)) : Except Error Model :=
  members.foldlM (fun m member => m.set member.1 (.plain member.2)) m

theorem mem_names_of_set {name : String} {input : FieldValue} {after : Model} (h : m.set name input = .ok after) :
    name ∈ m.type.fields.map Field.name := by
  obtain ⟨slot, field, current, value, hslot, _⟩ := set_eq_ok.mp h
  obtain ⟨hfield, _, hname⟩ := slotOf?_eq_some hslot
  exact hname ▸ List.mem_map_of_mem (List.mem_of_getElem? hfield)

/-- If all assignments succeed, one update of all their members does, and makes the same. -/
theorem merge_of_assignEach {members : List (String × Json)} (hc : (Blueprint.model m.type).IsReadable)
    (hm : m.IsAligned) (hn : (members.map (·.1)).Nodup) (hne : members ≠ []) (h : m.assignEach members = .ok last) :
    m.merge members = .ok last := by
  induction members generalizing m with
  | nil => exact absurd rfl hne
  | cons member rest ih =>
    obtain ⟨name, v⟩ := member
    rw [List.map_cons, List.nodup_cons] at hn
    rw [assignEach, List.foldlM_cons, bind_eq_ok] at h
    obtain ⟨next, hset, hrest⟩ := h
    have hcommits := commitsTo_set hset
    have hfirst : m.merge [(name, v)] = .ok next := by
      rw [← set_eq_merge hc.names hm (mem_names_of_set hset)]
      exact hset
    cases rest with
    | nil =>
      obtain rfl : next = last := by simpa [pure_eq_ok] using hrest
      exact hfirst
    | cons second rest =>
      have hdisjoint (other : String) : [(name, v)].lookup other = none ∨ (second :: rest).lookup other = none := by
        by_cases hother : other = name
        · subst hother
          refine Or.inr (List.lookup_eq_none_iff.mpr fun member hmember => ?_)
          rw [bne_iff_ne]
          rintro rfl
          exact hn.1 (List.mem_map.mpr ⟨member, hmember, rfl⟩)
        · exact Or.inl (by simp [List.lookup_cons, beq_eq_false_iff_ne.mpr hother])
      have hlast : next.merge (second :: rest) = .ok last :=
        ih (hcommits.type_eq ▸ hc) (hcommits.isAligned hm) hn.2 (by simp) hrest
      exact merge_append hc hdisjoint hfirst hlast

end Model
end SchemaBound
