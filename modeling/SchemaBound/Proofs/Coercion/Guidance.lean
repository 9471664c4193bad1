import SchemaBound.Proofs.Coercion.Leafwise
import SchemaBound.Proofs.Draft7.Interpretation

/-! Conversion that keeps what a judgement asks: at every schema that converts something, what it makes of the value is
met by the keywords of the schema, and by the schemas in it. -/
namespace SchemaBound

namespace Interpretation

variable {Context : Type} (I : Interpretation Context)

/-- From the schema, where it is read, references lead to the other one. -/
inductive Leads : Context → Json → Context → Json → Prop
  | self {c : Context} {node : Json} : Leads c node c node
  | reference {c d e : Context} {members : List (String × Json)} {reference : String} {node last : Json} :
      members.lookup "$ref" = some (.str reference) → I.follow c reference = some (d, node) → Leads d node e last →
      Leads c (.obj members) e last

variable {I} {inspect : Json → Except SchemaError Unit} {judge : Json → Json → List Violation} {c d : Context}
  {node last x : Json}

namespace Leads

theorem isMet (hleads : I.Leads c node d last) (h : I.IsDraft7 inspect judge) (hmet : I.IsMet c node x) :
    I.IsMet d last x := by
  induction hleads with
  | self => exact hmet
  | reference href hfollow _ ih => exact ih (hmet.target h href hfollow)

theorem isFinite (hleads : I.Leads c node d last) (hfinite : I.IsFinite c node x) : I.IsFinite d last x := by
  induction hleads with
  | self => exact hfinite
  | reference href hfollow _ ih => exact ih (hfinite.target href hfollow)

theorem admits (hleads : I.Leads c node d last) (h : I.IsDraft7 inspect judge) (hreads : I.reads c node)
    (hx : x.hasDistinctNames) (hfinite : I.IsFinite c node x) (hadmits : I.admits d last x) : I.admits c node x := by
  induction hleads with
  | self => exact hadmits
  | reference href hfollow _ ih =>
    have htarget := ih (h.reads_target hreads hfollow) (hfinite.target href hfollow) hadmits
    exact (h.admits_reference hreads hx hfinite href hfollow).mpr htarget

end Leads

end Interpretation

/-- Names are not lost by reading texts. -/
theorem Requires.of_leafwise {members : List (String × Json)} {v : Json} (h : Requires members v) {f : Json → Json}
    (hf : Coercion.Leafwise f) : Requires members (f v) := by
  refine ⟨fun names data name hnames hv hname => ?_, fun list data name names other hlist hv hsome hnames hother => ?_⟩
  · obtain ⟨original, horiginal, hsame⟩ := hf.exists_of_eq_obj hv
    rw [hsame]
    exact h.required names original name hnames horiginal hname
  · obtain ⟨original, horiginal, hsame⟩ := hf.exists_of_eq_obj hv
    rw [hsame] at hsome ⊢
    exact h.dependencies list original name names other hlist horiginal hsome hnames hother

namespace Coercion

section Definitions

variable {Context : Type} (I : Interpretation Context) (document : Json) (options : Options)

/-- What conversion makes of `x` keeps what the members of a schema ask, if what the schemas below make of parts keeps
what these ask. -/
structure Keeps (walk : Json → Json → Json) (guided : Context → Json → Json → Prop) (c : Context)
    (members : List (String × Json)) (x y : Json) : Prop where
  /-- The keywords that look at the value alone are met. -/
  own : I.own (I.draft c) members y
  /-- Choices are met: by `anyOf`, say, one of the alternatives admits what conversion makes of the value. -/
  choices : Chooses (I.draft c) (I.admits (I.inside c members)) members y
  /-- A schema for a part has been asked about that part before, or is the one that converts it, or admits what the part
  has become. -/
  demands : ∀ node z', Demands (I.draft c) I.occurs members y node z' →
    Demands (I.draft c) I.occurs members x node z' ∨
    (∃ original z, node = options.form original ∧ z' = walk original z ∧ Demands (I.draft c) I.occurs members x node z ∧
      guided (I.inside c members) original z) ∨
    I.admits (I.inside c members) node z'

/-- Where conversion by the schema, at most `depth` schemas deep, changes the part, it keeps what the schema asks. -/
def IsGuided : Nat → Context → Json → Json → Prop
  | 0, _, _, _ => True
  | depth + 1, c, node, x => walk document (depth + 1) node x ≠ x → ∃ d members,
      resolve? document maxDepth node = some (.obj members) ∧
      I.Leads c (options.form node) d (.obj (options.formMembers members)) ∧
      Keeps I options (walk document depth) (IsGuided depth) d (options.formMembers members) x
        (walk document (depth + 1) node x)

end Definitions

variable {Context : Type} {I : Interpretation Context} {document : Json} {options : Options}
  {inspect : Json → Except SchemaError Unit} {judge : Json → Json → List Violation} {c : Context} {node x : Json}

/-- Conversion takes no schema for one that is a reference itself. -/
theorem get_ne_of_resolve {hops : Nat} {target : Json} (h : resolve? document hops node = some target)
    (reference : String) : target.get? "$ref" ≠ some (.str reference) := by
  induction hops generalizing node with
  | zero => cases h
  | succ hops ih =>
    unfold resolve? at h
    split at h
    · split at h
      · obtain ⟨next, _, h⟩ := Option.bind_eq_some_iff.mp h
        exact ih h
      · cases h
    · rename_i hnot
      split at h
      · obtain rfl := Option.some.inj h
        exact hnot reference
      · cases h

/-- A schema that admits a value admits what guided conversion makes of it. -/
theorem IsGuided.admits (h : I.IsDraft7 inspect judge) {depth : Nat}
    (hguided : IsGuided I document options depth c node x)
    (hmet : I.IsMet c (options.form node) x) (hfinite : I.IsFinite c (options.form node) (walk document depth node x)) :
    I.admits c (options.form node) (walk document depth node x) := by
  induction depth generalizing c node x with
  | zero => exact hmet.admits
  | succ depth ih =>
    by_cases hsame : walk document (depth + 1) node x = x
    · rw [hsame]
      exact hmet.admits
    obtain ⟨d, members, hresolve, hleads, hkeeps⟩ := hguided hsame
    have hdistinct : (walk document (depth + 1) node x).hasDistinctNames :=
      (leafwise_walk document (depth + 1) node).hasDistinctNames hmet.distinct
    have hmetThere := hleads.isMet h hmet
    have hfiniteThere := hleads.isFinite hfinite
    have hnone : (options.formMembers members).lookup "$ref" = none := by
      cases href : (options.formMembers members).lookup "$ref" with
      | none => rfl
      | some target =>
        obtain ⟨reference, rfl⟩ := h.isReference hmetThere.reads href
        rw [Options.lookup_formMembers_data (by decide) (by decide)] at href
        exact absurd href (get_ne_of_resolve hresolve reference)
    obtain ⟨hmeets, _⟩ := hmetThere.meets h hnone
    refine hleads.admits h hmet.reads hdistinct hfinite ?_
    rw [h.keywords hmetThere.reads hdistinct hfiniteThere hnone]
    refine ⟨⟨fun part z' hdemands => ?_, hkeeps.choices, ?_⟩, hkeeps.own⟩
    · rcases hkeeps.demands part z' hdemands with hbefore | ⟨original, z, rfl, rfl, hbefore, hpart⟩ | hadmits
      · exact hmeets.demands part z' hbefore
      · exact ih hpart (hmetThere.demand h hnone hbefore) (hfiniteThere.part hnone (.demand hdemands))
      · exact hadmits
    · exact hmeets.requirements.of_leafwise (leafwise_walk document (depth + 1) node)

end Coercion
end SchemaBound
