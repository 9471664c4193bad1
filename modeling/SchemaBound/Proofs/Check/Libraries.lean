import SchemaBound.Check.Evaluation
import SchemaBound.Proofs.Json.Names
import SchemaBound.Proofs.Success

/-! What references can lead to has distinct names if the document has them. -/
namespace SchemaBound

namespace Json

mutual
theorem hasDistinctNames_of_locatedParts {draft : Draft} {base : Url} (v : Json) {parts : List (String × Json)}
    (h : v.locatedParts draft base = .ok parts) (hv : v.hasDistinctNames) :
    ∀ part ∈ parts, part.2.hasDistinctNames := by
  cases v with
  | arr items =>
    rw [locatedParts] at h
    exact hasDistinctNames_of_locatedItems items h (hasDistinctNames_arr_iff.mp hv)
  | obj members =>
    have hmembers := (hasDistinctNames_obj_iff.mp hv).2
    rw [locatedParts] at h
    split at h
    · obtain ⟨location, _, h⟩ := Success.bind_eq_ok.mp h
      obtain ⟨inner, hinner, h⟩ := Success.bind_eq_ok.mp h
      obtain rfl := Success.pure_eq_ok.mp h
      exact List.forall_mem_cons.mpr ⟨hv, hasDistinctNames_of_locatedMembers members hinner hmembers⟩
    · exact hasDistinctNames_of_locatedMembers members h hmembers
  | _ =>
    rw [locatedParts] at h
    · obtain rfl := Except.ok.inj h
      nofun
    · nofun
    · nofun

theorem hasDistinctNames_of_locatedItems {draft : Draft} {base : Url} (items : List Json) {parts : List (String × Json)}
    (h : locatedItems draft base items = .ok parts) (hitems : ∀ v ∈ items, v.hasDistinctNames) :
    ∀ part ∈ parts, part.2.hasDistinctNames := by
  cases items with
  | nil =>
    rw [locatedItems] at h
    obtain rfl := Except.ok.inj h
    nofun
  | cons v rest =>
    obtain ⟨hv, hrest⟩ := List.forall_mem_cons.mp hitems
    rw [locatedItems] at h
    obtain ⟨first, hfirst, h⟩ := Success.bind_eq_ok.mp h
    obtain ⟨others, hothers, h⟩ := Success.bind_eq_ok.mp h
    obtain rfl := Success.pure_eq_ok.mp h
    exact List.forall_mem_append.mpr ⟨hasDistinctNames_of_locatedParts v hfirst hv,
      hasDistinctNames_of_locatedItems rest hothers hrest⟩

theorem hasDistinctNames_of_locatedMembers {draft : Draft} {base : Url} (members : List (String × Json))
    {parts : List (String × Json)} (h : locatedMembers draft base members = .ok parts)
    (hmembers : ∀ member ∈ members, member.2.hasDistinctNames) : ∀ part ∈ parts, part.2.hasDistinctNames := by
  cases members with
  | nil =>
    rw [locatedMembers] at h
    obtain rfl := Except.ok.inj h
    nofun
  | cons member rest =>
    obtain ⟨name, v⟩ := member
    obtain ⟨hv, hrest⟩ := List.forall_mem_cons.mp hmembers
    rw [locatedMembers] at h
    split at h
    · obtain ⟨first, hfirst, h⟩ := Success.bind_eq_ok.mp h
      obtain ⟨others, hothers, h⟩ := Success.bind_eq_ok.mp h
      obtain rfl := Success.pure_eq_ok.mp h
      obtain rfl := Except.ok.inj hfirst
      exact hasDistinctNames_of_locatedMembers rest hothers hrest
    · obtain ⟨first, hfirst, h⟩ := Success.bind_eq_ok.mp h
      obtain ⟨others, hothers, h⟩ := Success.bind_eq_ok.mp h
      obtain rfl := Success.pure_eq_ok.mp h
      exact List.forall_mem_append.mpr ⟨hasDistinctNames_of_locatedParts v hfirst hv,
        hasDistinctNames_of_locatedMembers rest hothers hrest⟩
end

theorem hasDistinctNames_followLocated {draft : Draft} {tokens : List String} {v target : Json} {ids : List String}
    (h : v.followLocated? draft tokens = some (target, ids)) (hv : v.hasDistinctNames) : target.hasDistinctNames := by
  induction tokens generalizing v ids with
  | nil =>
    obtain ⟨rfl, _⟩ := Prod.mk.inj (Option.some.inj h)
    exact hv
  | cons token rest ih =>
    obtain ⟨next, hnext, h⟩ := Option.bind_eq_some_iff.mp h
    obtain ⟨found, hfound, h⟩ := Option.bind_eq_some_iff.mp h
    obtain ⟨rfl, _⟩ := Prod.mk.inj (Option.some.inj h)
    exact ih hfound (hasDistinctNames_childAt hv hnext)

end Json

namespace Library

/-- A library has the location that its document names, if it names one. -/
theorem exists_of_ofDocument {draft : Draft} {document : Json} {library : Library}
    (h : Library.ofDocument draft document = .ok library) :
    ∃ location parts, (draft.idOf? document).elim (.ok .unnamed) Url.parse = .ok location ∧
      document.locatedParts draft location = .ok parts ∧ library = ⟨document, location, parts.reverse⟩ := by
  unfold Library.ofDocument at h
  dsimp only at h
  split at h
  · rename_i id hid
    obtain ⟨location, hlocation, h⟩ := Success.bind_eq_ok.mp h
    obtain ⟨parts, hparts, h⟩ := Success.bind_eq_ok.mp h
    exact ⟨location, parts, hid ▸ hlocation, hparts, (Success.pure_eq_ok.mp h).symm⟩
  · rename_i hid
    obtain ⟨location, hlocation, h⟩ := Success.bind_eq_ok.mp h
    obtain ⟨parts, hparts, h⟩ := Success.bind_eq_ok.mp h
    exact ⟨location, parts, hid ▸ hlocation, hparts, (Success.pure_eq_ok.mp h).symm⟩

/-- No object in the library has two members of one name. -/
structure HasDistinctNames (library : Library) : Prop where
  root : library.root.hasDistinctNames
  located : ∀ part ∈ library.located, part.2.hasDistinctNames

theorem hasDistinctNames_ofDocument {draft : Draft} {document : Json} {library : Library}
    (h : Library.ofDocument draft document = .ok library) (hdocument : document.hasDistinctNames) :
    library.HasDistinctNames := by
  obtain ⟨location, parts, _, hparts, rfl⟩ := exists_of_ofDocument h
  refine ⟨hdocument, fun part hpart => ?_⟩
  exact Json.hasDistinctNames_of_locatedParts document hparts hdocument part (List.mem_reverse.mp hpart)

theorem hasDistinctNames_metaSchema (draft : Draft) : (MetaSchema.document draft).hasDistinctNames := by
  cases draft <;> decide +kernel

variable {library : Library} (h : library.HasDistinctNames)
include h

theorem HasDistinctNames.document {url : Url} {document : Json} (hdocument : library.document url = .ok document) :
    document.hasDistinctNames := by
  unfold Library.document at hdocument
  split at hdocument
  · obtain rfl := Except.ok.inj hdocument
    exact h.root
  · dsimp only at hdocument
    split at hdocument
    · rename_i hlookup
      obtain rfl := Except.ok.inj hdocument
      exact h.located _ (Json.mem_of_lookup hlookup)
    · split at hdocument
      · obtain rfl := Except.ok.inj hdocument
        exact hasDistinctNames_metaSchema _
      · cases hdocument

theorem HasDistinctNames.resolve {draft : Draft} {url location : Url} {node : Json}
    (hresolve : library.resolve draft url = .ok (node, location)) : node.hasDistinctNames := by
  unfold Library.resolve at hresolve
  obtain ⟨pointer, _, hresolve⟩ := Success.bind_eq_ok.mp hresolve
  split at hresolve
  · rename_i hlookup
    obtain ⟨rfl, _⟩ := Prod.mk.inj (Success.pure_eq_ok.mp hresolve)
    exact h.located _ (Json.mem_of_lookup hlookup)
  · obtain ⟨document, hdocument, hresolve⟩ := Success.bind_eq_ok.mp hresolve
    split at hresolve
    · obtain ⟨rfl, _⟩ := Prod.mk.inj (Success.pure_eq_ok.mp hresolve)
      exact h.document hdocument
    · split at hresolve
      · rename_i hfound
        obtain ⟨tokens, _, hfound⟩ := Option.bind_eq_some_iff.mp hfound
        split at hresolve
        · obtain ⟨rfl, _⟩ := Prod.mk.inj (Success.pure_eq_ok.mp hresolve)
          exact Json.hasDistinctNames_followLocated hfound (h.document hdocument)
        · cases hresolve
      · cases hresolve

end Library
end SchemaBound
