import Mathlib.Data.Finite.Prod
import Mathlib.Order.Filter.AtTopBot.Basic
import Mathlib.Order.Filter.Finite
import SchemaBound.Engine
import SchemaBound.Proofs.Check.Libraries
import SchemaBound.Proofs.Check.Objects
import SchemaBound.Proofs.Draft7.Interpretation

/-! The check goes by the rules of Draft 7. It follows references for a number of hops; a schema admits what it accepts
however many more there are. -/
namespace SchemaBound
open Filter Rule

/-- What the reading of a schema depends on: the location that references are relative to, the draft, and the library
that they lead into. -/
structure Standpoint where
  library : Library
  base : Url
  draft : Draft

namespace Standpoint

def scope (c : Standpoint) : Scope := ⟨c.base, c.draft, []⟩

/-- Documents are of Draft 7. One whose location makes no sense is refused. -/
def start (document : Json) : Standpoint :=
  match Library.ofDocument .seven document with
  | .ok library => ⟨library, Scope.baseOf library.location, .seven⟩
  | .error _ => ⟨⟨document, .unnamed, []⟩, .unnamed, .seven⟩

def inside (c : Standpoint) (members : List (String × Json)) : Standpoint :=
  match c.scope.inside (.obj members) with
  | .ok inner => { c with base := inner.base }
  | .error _ => c

/-- References lead to schemas that can be read. -/
def follow (c : Standpoint) (reference : String) : Option (Standpoint × Json) := do
  let url ← (c.scope.locate reference).toOption
  let (node, location) ← (c.library.resolve c.draft url).toOption
  let d : Standpoint := ⟨c.library, Scope.baseOf location, (Draft.named? node).getD c.draft⟩
  (Rule.read d.scope node).toOption.map fun _ => (d, node)

/-- How the check gets from schemas to schemas. -/
def trail : Trail Standpoint where
  start := start
  draft c := c.draft
  inside := inside
  follow := follow
  occurs := Pattern.Occurs

/-- The schema accepts the value whenever references are followed often enough. -/
def Admits (c : Standpoint) (node v : Json) : Prop := ∀ᶠ hops in atTop, Accepts (followIn c.library hops) c.scope node v

end Standpoint

theorem isSeatless_followIn (library : Library) (hops : Nat) : (followIn library hops).IsSeatless := by
  intro url draft seat seat' v
  cases hops with
  | zero => simp [followIn]
  | succ hops =>
    rw [followIn, followIn]
    split
    · simp
    · split <;> simp

namespace Standpoint

variable {c d : Standpoint} {members : List (String × Json)} {reference : String} {node v : Json}

theorem library_inside (c : Standpoint) (members : List (String × Json)) : (c.inside members).library = c.library := by
  unfold inside
  split <;> rfl

theorem draft_inside (c : Standpoint) (members : List (String × Json)) : (c.inside members).draft = c.draft := by
  unfold inside
  split <;> rfl

/-- What references lead to is found in the library and can be read. -/
theorem follow_eq_some_iff : c.follow reference = some (d, node) ↔
    ∃ url location, c.scope.locate reference = .ok url ∧ c.library.resolve c.draft url = .ok (node, location) ∧
      d = ⟨c.library, Scope.baseOf location, (Draft.named? node).getD c.draft⟩ ∧ Reads d.scope node := by
  constructor
  · intro h
    obtain ⟨url, hurl, h⟩ := Option.bind_eq_some_iff.mp h
    obtain ⟨⟨target, location⟩, hresolve, h⟩ := Option.bind_eq_some_iff.mp h
    obtain ⟨rule, hread, h⟩ := Option.map_eq_some_iff.mp h
    obtain ⟨rfl, rfl⟩ := Prod.mk.inj h
    exact ⟨url, location, Success.toOption_eq_some.mp hurl, Success.toOption_eq_some.mp hresolve, rfl, rule,
      Success.toOption_eq_some.mp hread⟩
  · rintro ⟨url, location, hurl, hresolve, rfl, rule, hread⟩
    refine Option.bind_eq_some_iff.mpr ⟨url, Success.toOption_eq_some.mpr hurl, ?_⟩
    refine Option.bind_eq_some_iff.mpr ⟨(node, location), Success.toOption_eq_some.mpr hresolve, ?_⟩
    exact Option.map_eq_some_iff.mpr ⟨rule, Success.toOption_eq_some.mpr hread, rfl⟩

/-- Nothing but text is a reference. -/
theorem exists_reference {target : Json} (href : members.lookup "$ref" = some target)
    (hreads : Reads c.scope (.obj members)) : ∃ reference, target = .str reference := by
  obtain ⟨rule, hrule⟩ := hreads
  rw [Rule.read, ofMembers, href] at hrule
  cases target with
  | str reference => exact ⟨reference, rfl⟩
  | _ => cases hrule

theorem accepts_reference (href : members.lookup "$ref" = some (.str reference)) (hreads : Reads c.scope (.obj members))
    (hops : Nat) : Accepts (followIn c.library (hops + 1)) c.scope (.obj members) v ↔
      ∃ d node, c.follow reference = some (d, node) ∧ Accepts (followIn c.library hops) d.scope node v := by
  obtain ⟨rule, hrule⟩ := hreads
  have hlocate := hrule
  rw [Rule.read, ofMembers, href] at hlocate
  obtain ⟨url, hurl, rfl⟩ := Success.map_eq_ok.mp hlocate
  have haccepts : Accepts (followIn c.library (hops + 1)) c.scope (.obj members) v ↔
      followIn c.library (hops + 1) url c.draft none v = [] := by
    constructor
    · rintro ⟨rule', hrule', hnone⟩
      obtain rfl := Except.ok.inj (hrule.symm.trans hrule')
      rwa [findings] at hnone
    · exact fun hnone => ⟨_, hrule, by rwa [findings]⟩
  rw [haccepts, followIn]
  constructor
  · intro h
    split at h
    · cases h
    · rename_i node location hresolve
      split at h
      · cases h
      · rename_i rule hread
        exact ⟨⟨c.library, Scope.baseOf location, (Draft.named? node).getD c.draft⟩, node,
          follow_eq_some_iff.mpr ⟨url, location, hurl, hresolve, rfl, rule, hread⟩, rule, hread,
          List.map_eq_nil_iff.mp h⟩
  · rintro ⟨d, node, hfollow, rule, hread, hnone⟩
    obtain ⟨url', location, hurl', hresolve, rfl, _⟩ := follow_eq_some_iff.mp hfollow
    obtain rfl := Except.ok.inj (hurl.symm.trans hurl')
    rw [hresolve]
    dsimp only
    have hread : Rule.read (.ofDocument location ((Draft.named? node).getD c.draft)) node = .ok rule := hread
    rw [hread]
    exact List.map_eq_nil_iff.mpr hnone

theorem library_follow (h : c.follow reference = some (d, node)) : d.library = c.library := by
  obtain ⟨_, _, _, _, rfl, _⟩ := follow_eq_some_iff.mp h
  rfl

section Objects

variable (hnone : members.lookup "$ref" = none) (hreads : Reads c.scope (.obj members))
include hnone hreads

theorem inside_eq : c.scope.inside (.obj members) = .ok (c.inside members).scope := by
  obtain ⟨inner, hinner, hdraft⟩ := exists_inside_of_reads hnone hreads
  have hplace : inner.place = [] := by
    unfold Scope.inside at hinner
    split at hinner
    · obtain ⟨location, _, rfl⟩ := Success.map_eq_ok.mp hinner
      rfl
    · rw [← Except.ok.inj hinner]
      rfl
  rw [hinner]
  unfold inside
  rw [hinner]
  obtain ⟨base, draft, place⟩ := inner
  obtain rfl : place = [] := hplace
  obtain rfl : draft = c.draft := hdraft
  rfl

variable (hdistinct : (Json.obj members).hasDistinctNames)
include hdistinct

theorem reads_part {way : Polarity} {x : Json} (hposes : Poses c.draft Pattern.Occurs members way v node x) :
    Reads (c.inside members).scope node :=
  reads_inside_of_poses (isSeatless_followIn c.library 0) hnone hdistinct hreads (inside_eq hnone hreads) hposes

theorem accepts_keywords (hv : v.hasDistinctNames) (hops : Nat) :
    Accepts (followIn c.library hops) c.scope (.obj members) v ↔
      MeetsRules c.draft Pattern.Occurs (Accepts (followIn c.library hops) (c.inside members).scope) members v ∧
        MeetsOwn c.draft members v :=
  accepts_iff_meets (isSeatless_followIn c.library hops) hnone hdistinct hreads (inside_eq hnone hreads) hv

end Objects

section Settled

/-- What holds from some number of hops on. -/
theorem eventually_iff {p : Nat → Prop} {q : Prop} (h : ∀ᶠ hops in atTop, p hops ↔ q) :
    (∀ᶠ hops in atTop, p hops) ↔ q :=
  (eventually_congr h).trans eventually_const

theorem eventually_succ {p : Nat → Prop} : (∀ᶠ hops in atTop, p hops) ↔ ∀ᶠ hops in atTop, p (hops + 1) := by
  conv_lhs => rw [← map_add_atTop_eq_nat 1, eventually_map]

/-- What the library leads to has distinct names, and the schema can be read. -/
structure IsReadable (c : Standpoint) (node : Json) : Prop where
  reads : Reads c.scope node
  distinct : node.hasDistinctNames
  library : c.library.HasDistinctNames

theorem IsReadable.part (h : c.IsReadable (.obj members)) (hnone : members.lookup "$ref" = none) {way : Polarity}
    {x : Json} (hposes : Poses c.draft Pattern.Occurs members way v node x) : (c.inside members).IsReadable node where
  reads := reads_part hnone h.reads h.distinct hposes
  distinct := Json.hasDistinctNames_of_mem_contents h.distinct hposes.mem_contents
  library := (library_inside c members).symm ▸ h.library

theorem IsReadable.target (h : c.IsReadable node) {target : Json} (hfollow : c.follow reference = some (d, target)) :
    d.IsReadable target := by
  obtain ⟨url, location, _, hresolve, rfl, hreads⟩ := follow_eq_some_iff.mp hfollow
  exact ⟨hreads, h.library.resolve hresolve, h.library⟩

/-- A reference accepts what the schema accepts that it leads to. -/
theorem eventually_accepts_reference (href : members.lookup "$ref" = some (.str reference))
    (hreads : Reads c.scope (.obj members)) (htarget : ∀ d node, c.follow reference = some (d, node) →
      ∀ᶠ hops in atTop, Accepts (followIn c.library hops) d.scope node v ↔ d.Admits node v) :
    ∀ᶠ hops in atTop, Accepts (followIn c.library hops) c.scope (.obj members) v ↔
      ∃ d node, c.follow reference = some (d, node) ∧ d.Admits node v := by
  rw [eventually_succ]
  simp only [accepts_reference href hreads]
  cases hfollow : c.follow reference with
  | none => simp
  | some found =>
    refine (htarget found.1 found.2 hfollow).mono fun hops hiff => ?_
    simpa [Prod.ext_iff] using hiff

/-- Of any schema and value there are finitely many questions to ask next. -/
theorem finite_poses (draft : Draft) (members : List (String × Json)) (v : Json) :
    {question : Json × Json | ∃ way, Poses draft Pattern.Occurs members way v question.1 question.2}.Finite := by
  refine ((List.finite_toSet (Json.obj members).contents).prod (List.finite_toSet v.asked)).subset ?_
  rintro ⟨node, x⟩ ⟨way, hposes⟩
  exact ⟨hposes.mem_contents, hposes.mem_asked⟩

/-- Other objects accept what meets their keywords. -/
theorem eventually_accepts_keywords (hnone : members.lookup "$ref" = none) (hreads : c.IsReadable (.obj members))
    (hv : v.hasDistinctNames) (hparts : ∀ way node x, Poses c.draft Pattern.Occurs members way v node x →
      ∀ᶠ hops in atTop, Accepts (followIn c.library hops) (c.inside members).scope node x ↔
        (c.inside members).Admits node x) :
    ∀ᶠ hops in atTop, Accepts (followIn c.library hops) c.scope (.obj members) v ↔
      MeetsRules c.draft Pattern.Occurs (c.inside members).Admits members v ∧ MeetsOwn c.draft members v := by
  have hall := (eventually_all_finite (finite_poses c.draft members v)).mpr fun question hposes =>
    hparts hposes.choose question.1 question.2 hposes.choose_spec
  refine hall.mono fun hops hall => ?_
  rw [accepts_keywords hnone hreads.reads hreads.distinct hv hops,
    MeetsRules.congr fun way node x hposes => hall (node, x) ⟨way, hposes⟩]

/-- From some number of hops on, it does not matter how many more there are. -/
theorem eventually_accepts_iff (hreads : c.IsReadable node) (hv : v.hasDistinctNames)
    (hfinite : trail.IsFinite c node v) :
    ∀ᶠ hops in atTop, Accepts (followIn c.library hops) c.scope node v ↔ c.Admits node v := by
  obtain ⟨question, hquestion⟩ : ∃ question : Question Standpoint, question = ⟨c, node, v⟩ := ⟨_, rfl⟩
  rw [Trail.IsFinite, ← hquestion] at hfinite
  induction hfinite generalizing c node v with
  | intro question _ ih =>
    subst hquestion
    obtain ⟨q, hq⟩ : ∃ q, ∀ᶠ hops in atTop, Accepts (followIn c.library hops) c.scope node v ↔ q := by
      cases node with
      | obj members =>
        cases href : members.lookup "$ref" with
        | some target =>
          obtain ⟨reference, rfl⟩ := exists_reference href hreads.reads
          refine ⟨_, eventually_accepts_reference href hreads.reads fun d node hfollow => ?_⟩
          rw [← library_follow hfollow]
          exact ih _ (.target href hfollow) (hreads.target hfollow) hv rfl
        | none =>
          refine ⟨_, eventually_accepts_keywords href hreads hv fun way node x hposes => ?_⟩
          rw [← library_inside c members]
          exact ih _ (.part href hposes) (hreads.part href hposes)
            (Json.hasDistinctNames_of_mem_asked hv hposes.mem_asked) rfl
      | bool b => exact ⟨_, .of_forall fun hops => accepts_bool⟩
      | _ => exact absurd hreads.reads (by rintro ⟨rule, hrule⟩; cases hrule)
    exact hq.mono fun hops hiff => hiff.trans (eventually_iff hq).symm

end Settled

end Standpoint

/-- More hops than the limit change nothing. -/
def CheckEnds (document v : Json) : Prop :=
  ∀ library rule, Library.ofDocument .seven document = .ok library → library.rule .seven = .ok rule →
    ∀ hops, hopLimit library v ≤ hops → (rule.findings (followIn library hops) none v = [] ↔ check document v = [])

/-- What the check goes by. A check ends if no questions are asked forever and the limit of hops does not matter. -/
def checkInterpretation : Interpretation Standpoint where
  toTrail := Standpoint.trail
  own := MeetsOwn
  reads c node := c.IsReadable node
  admits c node v := c.Admits node v
  ends document v := Standpoint.trail.IsFinite (Standpoint.start document) document v ∧ CheckEnds document v

/-- A document that is not refused is a schema. -/
theorem exists_rule_of_refusal {document : Json} (h : refusal? document = none) :
    ∃ library rule, Library.ofDocument .seven document = .ok library ∧ library.rule .seven = .ok rule := by
  unfold refusal? at h
  split at h
  · cases h
  · rename_i library hlibrary
    split at h
    · cases h
    · split at h
      · cases h
      · rename_i rule hrule
        exact ⟨library, rule, hlibrary, hrule⟩

theorem Engine.refusal_of_inspect {document : Json} (h : Engine.inspect document = .ok ()) :
    refusal? document = none := by
  unfold Engine.inspect at h
  split at h
  · cases h
  · assumption

/-- A document that passes the inspection is read at its start. -/
theorem exists_start_of_inspect {document : Json} (h : Engine.inspect document = .ok ()) :
    ∃ library rule, Library.ofDocument .seven document = .ok library ∧ library.rule .seven = .ok rule ∧
      Standpoint.start document = ⟨library, Scope.baseOf library.location, .seven⟩ ∧
      Rule.read (Standpoint.start document).scope document = .ok rule := by
  obtain ⟨library, rule, hlibrary, hrule⟩ := exists_rule_of_refusal (Engine.refusal_of_inspect h)
  have hstart : Standpoint.start document = ⟨library, Scope.baseOf library.location, .seven⟩ := by
    unfold Standpoint.start
    rw [hlibrary]
  obtain ⟨_, _, _, _, hroot⟩ := Library.exists_of_ofDocument hlibrary
  refine ⟨library, rule, hlibrary, hrule, hstart, ?_⟩
  rw [hstart, ← hrule, Library.rule, hroot]
  rfl

/-- The check goes by the rules of Draft 7. -/
theorem isDraft7_check :
    checkInterpretation.IsDraft7 Engine.inspect fun document v => (check document v).map (·.toViolation) where
  judges {document v} hinspect hdocument hv hends := by
    obtain ⟨library, rule, hlibrary, hrule, hstart, hread⟩ := exists_start_of_inspect hinspect
    have haccepts : ∀ᶠ hops in atTop, Accepts (followIn (Standpoint.start document).library hops)
        (Standpoint.start document).scope document v ↔ check document v = [] := by
      filter_upwards [eventually_ge_atTop (hopLimit library v)] with hops hle
      rw [← hends.2 library rule hlibrary hrule hops hle]
      have hlib : (Standpoint.start document).library = library := by rw [hstart]
      rw [hlib]
      constructor
      · rintro ⟨rule', hread', hnone⟩
        obtain rfl := Except.ok.inj (hread.symm.trans hread')
        exact hnone
      · exact fun hnone => ⟨rule, hread, hnone⟩
    rw [List.map_eq_nil_iff]
    exact (Standpoint.eventually_iff haccepts).symm
  finite hends := hends.1
  draft_start document := by
    change (Standpoint.start document).draft = .seven
    unfold Standpoint.start
    split <;> rfl
  draft_inside := Standpoint.draft_inside
  reads_start {document} hinspect hdocument := by
    obtain ⟨library, rule, hlibrary, hrule, hstart, hread⟩ := exists_start_of_inspect hinspect
    refine ⟨⟨rule, hread⟩, hdocument, ?_⟩
    have hlib : (Standpoint.start document).library = library := by rw [hstart]
    exact hlib ▸ Library.hasDistinctNames_ofDocument hlibrary hdocument
  reads_part hreads hnone hposes := hreads.part hnone hposes
  reads_target hreads hfollow := hreads.target hfollow
  isSchema {c node} hreads := by
    obtain ⟨rule, hrule⟩ := hreads.reads
    cases node with
    | obj _ | bool _ => rfl
    | _ => cases hrule
  isReference hreads href := Standpoint.exists_reference href hreads.reads
  boolean := Standpoint.eventually_iff (.of_forall fun _ => accepts_bool)
  reference {c members reference v} hreads hv hfinite href := by
    refine Standpoint.eventually_iff (Standpoint.eventually_accepts_reference href hreads.reads fun d node hfollow => ?_)
    rw [← Standpoint.library_follow hfollow]
    exact Standpoint.eventually_accepts_iff (hreads.target hfollow) hv (hfinite.target href hfollow)
  keywords {c members v} hreads hv hfinite hnone := by
    refine Standpoint.eventually_iff (Standpoint.eventually_accepts_keywords hnone hreads hv fun way node x hposes => ?_)
    rw [← Standpoint.library_inside c members]
    exact Standpoint.eventually_accepts_iff (hreads.part hnone hposes)
      (Json.hasDistinctNames_of_mem_asked hv hposes.mem_asked) (hfinite.part hnone hposes)
  own_congr := MeetsOwn.congr
  own_type {c members v} hreads hnone htype hown :=
    Rule.exists_type_of_meetsOwn hnone hreads.distinct hreads.reads
      (Standpoint.inside_eq hnone hreads.reads) hown htype

end SchemaBound
