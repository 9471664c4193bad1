import SchemaBound.Proofs.Blueprint.Sheets

/-! From a value that a place is met with to its parts: the places that fields and elements come to are met with the
members and items that go into them. -/
namespace SchemaBound

variable {document : Json} {place target : Place}

/-- Every shape but that of plain values comes from an object. -/
theorem Shape.isObject_of_ofPlace {shape : Shape} (h : Shape.ofPlace document place = .ok shape)
    (hshape : shape ≠ .scalar) : place.node.isObject := by
  obtain ⟨pointer, node⟩ := place
  unfold Shape.ofPlace Shape.ofPlaceIn at h
  cases node with
  | obj members => rfl
  | bool b => exact absurd (Except.ok.inj h).symm hshape
  | _ => cases h

namespace Elements

/-- An array node states a rule for the item at the position. -/
def rulesAt (node : Json) (i : Nat) : Bool :=
  match node.get? "items" with
  | some (.arr items) => i < items.length
  | some _ => true
  | none => false

theorem isObject_of_get {node v : Json} {key : String} (h : node.get? key = some v) : node.isObject := by
  cases node with
  | obj members => rfl
  | _ => cases h

theorem isObject_of_isNullOnly {node : Json} (h : isNullOnly node) : node.isObject := by
  unfold isNullOnly at h
  split at h
  · exact isObject_of_get ‹_›
  · exact isObject_of_get ‹_›
  · cases h

theorem eq_of_mem_declaredTypes {node : Json} (hnull : isNullOnly node) {word : String}
    (hword : word ∈ Coercion.declaredTypes node) : word = "null" := by
  unfold isNullOnly at hnull
  unfold Coercion.declaredTypes at hword
  cases hnames : node.get? "type" with
  | none =>
    rw [hnames] at hword
    cases hword
  | some names =>
    rw [hnames] at hnull hword
    cases names with
    | str name => exact (List.mem_singleton.mp hword).trans (of_decide_eq_true hnull)
    | arr list =>
      simp only [Bool.and_eq_true, List.all_eq_true, decide_eq_true_eq] at hnull
      obtain ⟨name, hname, htext⟩ := List.mem_filterMap.mp hword
      rw [hnull.2 name hname] at htext
      exact (Option.some.inj htext).symm
    | _ => cases hnull

theorem any_insertPlace_self (places : List Place) (place : Place) :
    ∃ object ∈ insertPlace places place, object.pointer = place.pointer := by
  unfold insertPlace
  split
  · rename_i hany
    obtain ⟨object, hobject, hpointer⟩ := List.any_eq_true.mp hany
    exact ⟨object, hobject, of_decide_eq_true hpointer⟩
  · exact ⟨place, List.mem_append_right _ (List.mem_singleton.mpr rfl), rfl⟩

theorem subset_insertPlace (places : List Place) (place : Place) : places ⊆ insertPlace places place := by
  unfold insertPlace
  split
  · exact List.Subset.refl _
  · exact List.subset_append_left _ _

/-- A survey that finds nothing but objects and null has the pointer of each object. -/
theorem of_survey {places objects : List Place} (h : survey document places = .ok (objects, false)) :
    ∀ found ∈ places, (Shape.ofPlace document found = .ok .object ∧
      ∃ object ∈ objects, object.pointer = found.pointer) ∨ isNullOnly found.node := by
  have hall := Success.foldlM_reaches
    (fun (found : Place) (known : List Place × Bool) =>
      (Shape.ofPlace document found = .ok .object ∧ ∃ object ∈ known.1, object.pointer = found.pointer) ∨
        (known.2 = false → isNullOnly found.node))
    (fun found known next hnext => ?_) (fun found other known next hnext hknown => ?_) h
  · exact fun found hfound => (hall found hfound).imp_right fun hnull => hnull rfl
  · obtain ⟨shape, hshape, hnext⟩ := Success.bind_eq_ok.mp hnext
    split at hnext
    · obtain rfl := Success.pure_eq_ok.mp hnext
      exact Or.inl ⟨hshape, any_insertPlace_self known.1 found⟩
    · obtain rfl := Success.pure_eq_ok.mp hnext
      exact Or.inr fun hfalse => by simpa using (Bool.or_eq_false_iff.mp hfalse).2
  · obtain ⟨shape, hshape, hnext⟩ := Success.bind_eq_ok.mp hnext
    split at hnext
    · obtain rfl := Success.pure_eq_ok.mp hnext
      refine hknown.imp_left fun ⟨hobject, object, hmem, hpointer⟩ => ?_
      exact ⟨hobject, object, subset_insertPlace known.1 other hmem, hpointer⟩
    · obtain rfl := Success.pure_eq_ok.mp hnext
      exact hknown.imp_right fun hnull hfalse => hnull (Bool.or_eq_false_iff.mp hfalse).1

/-- What is no object has neither a reference nor alternatives. -/
theorem eq_of_expand {places : List Place} (hnode : place.node.isObject = false)
    (h : expand document place = .ok places) : places = [place] := by
  obtain ⟨pointer, node⟩ := place
  have hget (key : String) : node.get? key = none := by
    cases node with
    | obj members => cases hnode
    | _ => rfl
  have hnone : alternatives? node = none := by simp [alternatives?, hget]
  have hresolve : Place.resolve document ⟨pointer, node⟩ = .ok ⟨pointer, node⟩ := by
    simp [Place.resolve, Place.maxHops, Place.resolveIn, hget]
  unfold expand at h
  cases hdepth : nestingBound document with
  | zero =>
    rw [hdepth] at h
    cases h
  | succ depth =>
    rw [hdepth] at h
    unfold expandIn at h
    obtain ⟨_, hplace, h⟩ := Success.bind_eq_ok.mp h
    obtain rfl := Except.ok.inj (hresolve.symm.trans hplace)
    dsimp only at h
    rw [hnone] at h
    exact (Success.pure_eq_ok.mp h).symm

variable {object : Place}

/-- The rules for elements stand for one object, and for null. -/
theorem eq_or_isNullOnly (hd : document.hasDistinctNames) (hp : place.Reached document)
    (hs : place.HasShape document .array) (h : object? document place = .ok (some object)) {rule : Place}
    (hrule : rule ∈ stated place) :
    ∃ places, expand document rule = .ok places ∧
      ∀ found ∈ places, found.node.get? "$ref" = none ∧ (found = object ∨ isNullOnly found.node) := by
  obtain ⟨lists, hlists, hsurvey⟩ := exists_of_object h
  obtain ⟨places, hplaces, hexpand⟩ := Success.exists_result_of_mem hlists hrule
  refine ⟨places, hexpand, fun found hfound => ?_⟩
  obtain ⟨hreached, hnone⟩ := reached_of_expandIn (.element hp hs hrule) hexpand found hfound
  refine ⟨hnone, ?_⟩
  have hmem : found ∈ lists.flatten := List.mem_flatten.mpr ⟨places, hplaces, hfound⟩
  refine (of_survey hsurvey found hmem).imp_left fun ⟨_, same, hsame, hpointer⟩ => ?_
  obtain rfl := List.mem_singleton.mp hsame
  exact (reached_of_object hp hs h).1.eq_of_pointer hd hreached hpointer |>.symm

/-- The rules for elements are objects themselves. -/
theorem isObject_of_stated (hd : document.hasDistinctNames) (hp : place.Reached document)
    (hs : place.HasShape document .array) (h : object? document place = .ok (some object)) {rule : Place}
    (hrule : rule ∈ stated place) : rule.node.isObject := by
  by_contra hnode
  obtain ⟨places, hexpand, hall⟩ := eq_or_isNullOnly hd hp hs h hrule
  obtain rfl := eq_of_expand (Bool.eq_false_iff.mpr hnode) hexpand
  rcases (hall rule List.mem_cons_self).2 with rfl | hnull
  · exact hnode (Shape.isObject_of_ofPlace (reached_of_object hp hs h).2.ofPlace nofun)
  · exact hnode (isObject_of_isNullOnly hnull)

end Elements

namespace Interpretation.IsMet

variable {Context : Type} {I : Interpretation Context} {inspect : Json → Except SchemaError Unit}
  {judge : Json → Json → List Violation} {c : Context} {members : List (String × Json)} {v : Json}

/-- A schema whose type is null admits nothing else. -/
theorem eq_null (hmet : I.IsMet c (.obj members) v) (h : I.IsDraft7 inspect judge)
    (hnone : members.lookup "$ref" = none)
    (hnull : Elements.isNullOnly (.obj members)) : v = .null := by
  have htype : (members.lookup "type").isSome := by
    cases htype : members.lookup "type" with
    | none => simp [Elements.isNullOnly, Json.get?, htype] at hnull
    | some names => rfl
  obtain ⟨word, hword, name, hname, hadmits⟩ := hmet.exists_type h hnone htype
  obtain rfl := Elements.eq_of_mem_declaredTypes hnull hword
  have hword : TypeName.ofWord? "null" = some .null := by decide
  obtain rfl := Option.some.inj (hword.symm.trans hname)
  cases v with
  | null => rfl
  | _ => cases hadmits

end Interpretation.IsMet

namespace Place.IsMet

variable {Context : Type} {I : Interpretation Context} {inspect : Json → Except SchemaError Unit}
  {judge : Json → Json → List Violation} {options : Options} {v : Json}

/-- An object is met in its form, but for definitions. -/
theorem exists_members (hmet : place.IsMet I document options v) (hnode : place.node.isObject) :
    ∃ c members members', place.node = .obj members ∧ SameButDefinitions (options.formMembers members) members' ∧
      members'.lookup "$ref" = members.lookup "$ref" ∧ I.IsFaithful document options.form c (.obj members') ∧
      I.IsMet c (.obj members') v := by
  obtain ⟨c, node, hakin, hfaithful, hmet⟩ := hmet
  obtain ⟨pointer, whole⟩ := place
  cases whole with
  | obj members =>
    rw [Options.form_obj] at hakin
    obtain ⟨members', rfl, hsame⟩ := hakin.exists_members
    refine ⟨c, members, members', rfl, hsame, ?_, hfaithful, hmet⟩
    rw [← hsame "$ref" (by decide), Options.lookup_formMembers_data (by decide) (by decide)]
  | _ => cases hnode

variable (h : I.IsDraft7 inspect judge)
include h

/-- What is behind references is met with what the places in front of it are met with. -/
theorem resolveIn {visits : Nat} (hresolve : place.resolveIn document visits = .ok target)
    (hmet : place.IsMet I document options v) : target.IsMet I document options v := by
  induction visits generalizing place with
  | zero => cases hresolve
  | succ visits ih =>
    unfold Place.resolveIn at hresolve
    split at hresolve
    · obtain rfl := Except.ok.inj hresolve
      exact hmet
    · rename_i reference href
      split at hresolve
      · rename_i next hnext
        obtain ⟨c, members, members', hmembers, _, hsame, hfaithful, hnode⟩ :=
          hmet.exists_members (Elements.isObject_of_get href)
        rw [hmembers] at href
        obtain ⟨d, hfollow, hthere⟩ := hfaithful.exists_target (hsame.trans href) hnext
        exact ih hresolve ⟨d, _, .refl _, hthere, hnode.target h (hsame.trans href) hfollow⟩
      · cases hresolve
    · cases hresolve

/-- One of the places that a place stands for is met with what the place is met with. -/
theorem exists_of_expandIn {depth : Nat} {places : List Place}
    (hexpand : Elements.expandIn document depth place = .ok places)
    (hmet : place.IsMet I document options v) : ∃ found ∈ places, found.IsMet I document options v := by
  induction depth generalizing place places with
  | zero => cases hexpand
  | succ depth ih =>
    unfold Elements.expandIn at hexpand
    obtain ⟨target, htarget, hexpand⟩ := Success.bind_eq_ok.mp hexpand
    have htargetMet := hmet.resolveIn h htarget
    have hnone := Place.noReference_of_resolve htarget
    split at hexpand
    · obtain rfl := Success.pure_eq_ok.mp hexpand
      exact ⟨target, List.mem_cons_self, htargetMet⟩
    · rename_i keyword items halternatives
      obtain ⟨lists, hlists, hexpand⟩ := Success.bind_eq_ok.mp hexpand
      obtain rfl := Success.pure_eq_ok.mp hexpand
      have hget := Elements.get_of_alternatives halternatives
      have hkeyword := Place.keyword_of_alternatives halternatives
      have hnesting : Nesting.ofKeyword keyword = .listOrOne := by rcases hkeyword with rfl | rfl <;> decide
      have hdefinitions : ¬ isDefinitions keyword := by rcases hkeyword with rfl | rfl <;> decide
      obtain ⟨c, members, members', hmembers, hsame, href, hfaithful, hnode⟩ :=
        htargetMet.exists_members (Elements.isObject_of_get hget)
      rw [hmembers] at hget hnone
      have hlist : members'.lookup keyword = some (.arr (items.map options.form)) := by
        rw [← hsame keyword hdefinitions]
        exact (Options.lookup_formMembers_list hnesting).mpr ⟨items, hget, rfl⟩
      obtain ⟨node, hmem, ⟨way, hposes⟩, hitemMet⟩ := hnode.exists_alternative h (href.trans hnone) hkeyword hlist
      obtain ⟨item, hitem, rfl⟩ := List.mem_map.mp hmem
      obtain ⟨i, hi⟩ := List.getElem?_of_mem hitem
      have hentry : ⟨target.pointer ++ "/" ++ keyword ++ "/" ++ toString i, item⟩ ∈ target.entries keyword items :=
        List.mem_map.mpr ⟨(item, i), List.mem_zipIdx_iff_getElem?.mpr hi, rfl⟩
      obtain ⟨list, hlistMem, hlistExpand⟩ := Success.exists_result_of_mem hlists hentry
      obtain ⟨found, hfoundMem, hfound⟩ := ih hlistExpand
        ⟨_, _, .refl _, hfaithful.part h (href.trans hnone) hposes, hitemMet⟩
      exact ⟨found, List.mem_flatten.mpr ⟨list, hlistMem, hfoundMem⟩, hfound⟩

/-- The place that a field comes to is met with the member of its name. -/
theorem field {data : List (String × Json)} (hmet : place.IsMet I document options (.obj data))
    (hd : place.hasDistinctNames) (hs : place.HasShape document .object) {rules : List (String × Json)}
    (hrules : Compilation.properties place = .ok rules) {rule : String × Json} (hrule : rule ∈ rules)
    (hresolve : (Compilation.rulePlace place rule).resolve document = .ok target) {x : Json}
    (hx : data.lookup rule.1 = some x) : target.IsMet I document options x := by
  have hget := Place.get_of_properties hrules hrule
  have hlookup : rules.lookup rule.1 = some rule.2 :=
    Json.lookup_of_mem (Json.nodup_names (Json.hasDistinctNames_get hd hget)) hrule
  have hnone := hs.noReference
  obtain ⟨c, members, members', hmembers, hsame, href, hfaithful, hnode⟩ :=
    hmet.exists_members (Elements.isObject_of_get hget)
  rw [hmembers] at hget hnone
  have hproperties :
      members'.lookup "properties" = some (.obj (rules.map fun rule => (rule.1, options.form rule.2))) := by
    rw [← hsame "properties" (by decide)]
    exact (Options.lookup_formMembers_named (by decide)).mpr ⟨rules, hget, rfl⟩
  have hformed : (rules.map fun rule => (rule.1, options.form rule.2)).lookup rule.1 = some (options.form rule.2) := by
    rw [Options.lookup_map_form, hlookup, Option.map_some]
  have hdemands : Demands (I.draft c) I.occurs members' (.obj data) (options.form rule.2) x :=
    .property hproperties hformed hx
  have hplace : (Compilation.rulePlace place rule).IsMet I document options x :=
    ⟨_, _, .refl _, hfaithful.part h (href.trans hnone) (.demand hdemands), hnode.demand h (href.trans hnone) hdemands⟩
  exact hplace.resolveIn h hresolve

/-- Where an array node states a rule for an item, one of its rules is met with the item. -/
theorem exists_stated {items : List Json} (hmet : place.IsMet I document options (.arr items))
    (hs : place.HasShape document .array) (hall : ∀ rule ∈ Elements.stated place, rule.node.isObject) {i : Nat}
    (hruled : Elements.rulesAt place.node i) {x : Json} (hx : items[i]? = some x) :
    ∃ rule ∈ Elements.stated place, rule.IsMet I document options x := by
  have hnone := hs.noReference
  obtain ⟨c, members, members', hmembers, hsame, href, hfaithful, hnode⟩ :=
    hmet.exists_members (Shape.isObject_of_ofPlace hs.ofPlace nofun)
  rw [hmembers] at hnone
  have hnone' := href.trans hnone
  have hdemanded {rule : Place}
      (hdemands : Demands (I.draft c) I.occurs members' (.arr items) (options.form rule.node) x) :
      rule.IsMet I document options x :=
    ⟨_, _, .refl _, hfaithful.part h hnone' (.demand hdemands), hnode.demand h hnone' hdemands⟩
  have hlookup {rules : Json} (hrules : place.node.get? "items" = some rules) :
      members.lookup "items" = some rules := by
    rwa [hmembers] at hrules
  unfold Elements.rulesAt at hruled
  split at hruled
  · rename_i entries hitems
    have hi : i < entries.length := of_decide_eq_true hruled
    have hentries : members'.lookup "items" = some (.arr (entries.map options.form)) := by
      rw [← hsame "items" (by decide)]
      exact (Options.lookup_formMembers_list (by decide)).mpr ⟨entries, hlookup hitems, rfl⟩
    have hentry : (entries.map options.form)[i]? = some (options.form entries[i]) := by simp [hi]
    refine ⟨⟨place.pointer ++ "/" ++ "items" ++ "/" ++ toString i, entries[i]⟩, ?_, ?_⟩
    · refine List.mem_append_right _ ?_
      rw [hitems]
      exact List.mem_map.mpr ⟨(entries[i], i), List.mem_zipIdx_iff_getElem?.mpr (List.getElem?_eq_getElem hi), rfl⟩
    · exact hdemanded (.entry hentries hentry hx)
  · rename_i rules hnot hitems
    have hstated : ⟨place.pointer ++ "/items", rules⟩ ∈ Elements.stated place := by
      refine List.mem_append_right _ ?_
      rw [hitems]
      cases rules with
      | arr entries => exact absurd rfl (hnot entries)
      | _ => exact List.mem_singleton.mpr rfl
    have hschema : (options.form rules).isSchema := by
      rw [Options.isSchema_form, Json.isSchema, hall _ hstated, Bool.true_or]
    have hone : members'.lookup "items" = some (options.form rules) := by
      rw [← hsame "items" (by decide)]
      exact (Options.lookup_formMembers_single (by decide) (Json.isArray_of_isSchema hschema)).mpr
        ⟨rules, hlookup hitems, rfl⟩
    exact ⟨_, hstated, hdemanded (.item hone hschema (List.mem_of_getElem? hx))⟩
  · cases hruled

/-- Where an array node states a rule for an item that is an object, the place of elements is met with it. -/
theorem element {items : List Json} (hmet : place.IsMet I document options (.arr items))
    (hd : document.hasDistinctNames)
    (hp : place.Reached document) (hs : place.HasShape document .array) {object : Place}
    (hobject : Elements.object? document place = .ok (some object)) {i : Nat} (hruled : Elements.rulesAt place.node i)
    {data : List (String × Json)} (hx : items[i]? = some (.obj data)) :
    object.IsMet I document options (.obj data) := by
  have hrules : ∀ rule ∈ Elements.stated place, rule.node.isObject :=
    fun rule hrule => Elements.isObject_of_stated hd hp hs hobject hrule
  obtain ⟨rule, hrule, hitem⟩ := hmet.exists_stated h hs hrules hruled hx
  obtain ⟨places, hexpand, hall⟩ := Elements.eq_or_isNullOnly hd hp hs hobject hrule
  obtain ⟨found, hfound, hfoundMet⟩ := hitem.exists_of_expandIn h hexpand
  obtain ⟨hnone, rfl | hnull⟩ := hall found hfound
  · exact hfoundMet
  · -- Null is all that the other nodes admit, and the item is an object.
    obtain ⟨c, members, members', hmembers, hsame, href, _, hnode⟩ :=
      hfoundMet.exists_members (Elements.isObject_of_isNullOnly hnull)
    rw [hmembers] at hnone
    have hnull' : Elements.isNullOnly (.obj members') := by
      have htype : (Json.obj members').get? "type" = (options.form found.node).get? "type" := by
        rw [hmembers, Options.form_obj]
        exact (hsame "type" (by decide)).symm
      rw [← Options.isNullOnly_form, Elements.isNullOnly, ← htype] at hnull
      exact hnull
    cases hnode.eq_null h (href.trans hnone) hnull'

end Place.IsMet
end SchemaBound
