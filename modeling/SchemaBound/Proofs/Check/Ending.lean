import SchemaBound.Proofs.Check.Judging
import SchemaBound.Proofs.Draft7.Faithful
import SchemaBound.Proofs.Success

/-! Checks by documents whose references do not go in circles end. Whether they do, and whether references mean in a
document what they mean in a larger one, can be computed. -/
namespace SchemaBound
open Filter Rule

namespace Standpoint

/-- At most so many references follow one another when a schema is asked about a value. -/
inductive Within : Nat → Standpoint → Json → Json → Prop
  | scalar {n : Nat} {c : Standpoint} {node v : Json} : node.isObject = false → Within n c node v
  | keywords {n : Nat} {c : Standpoint} {members : List (String × Json)} {v : Json} : members.lookup "$ref" = none →
      (∀ way node x, Poses c.draft Pattern.Occurs members way v node x → Within n (c.inside members) node x) →
      Within n c (.obj members) v
  | reference {n : Nat} {c : Standpoint} {members : List (String × Json)} {target v : Json} :
      members.lookup "$ref" = some target →
      (∀ reference d node, target = .str reference → c.follow reference = some (d, node) → Within n d node v) →
      Within (n + 1) c (.obj members) v

variable {n : Nat} {c : Standpoint} {node v : Json}

theorem Within.isFinite (h : Within n c node v) : trail.IsFinite c node v := by
  induction h with
  | scalar hnode =>
    refine Acc.intro _ fun next hasks => ?_
    cases hasks <;> cases hnode
  | keywords hnone _ ih =>
    refine Acc.intro _ fun next hasks => ?_
    cases hasks with
    | part _ hposes => exact ih _ _ _ hposes
    | target href _ => cases hnone.symm.trans href
  | reference href _ ih =>
    refine Acc.intro _ fun next hasks => ?_
    cases hasks with
    | part hnone _ => cases hnone.symm.trans href
    | target href' hfollow => exact ih _ _ _ (Option.some.inj (href.symm.trans href')) hfollow

/-- No more hops are needed than there are references one after another. -/
theorem Within.accepts_iff (h : Within n c node v) (hreads : c.IsReadable node) (hv : v.hasDistinctNames) {hops : Nat}
    (hhops : n ≤ hops) : Accepts (followIn c.library hops) c.scope node v ↔ c.Admits node v := by
  induction h generalizing hops with
  | @scalar n c node v hnode =>
    cases node with
    | obj _ => cases hnode
    | bool b => exact accepts_bool.trans (eventually_iff (.of_forall fun _ => accepts_bool)).symm
    | _ => exact absurd hreads.reads (by rintro ⟨rule, hrule⟩; cases hrule)
  | @keywords n c members v hnone _ ih =>
    have hparts {hops : Nat} (hhops : n ≤ hops) (way : Polarity) (node x : Json)
        (hposes : Poses c.draft Pattern.Occurs members way v node x) :
        Accepts (followIn c.library hops) (c.inside members).scope node x ↔ (c.inside members).Admits node x := by
      rw [← library_inside c members]
      exact ih way node x hposes (hreads.part hnone hposes) (Json.hasDistinctNames_of_mem_asked hv hposes.mem_asked) hhops
    have hadmits := eventually_iff (eventually_accepts_keywords hnone hreads hv fun way node x hposes =>
      (eventually_ge_atTop n).mono fun hops hhops => hparts hhops way node x hposes)
    rw [accepts_keywords hnone hreads.reads hreads.distinct hv hops, MeetsRules.congr (hparts hhops)]
    exact hadmits.symm
  | @reference n c members target v href _ ih =>
    obtain ⟨reference, rfl⟩ := exists_reference href hreads.reads
    have htarget {hops : Nat} (hhops : n ≤ hops) {d : Standpoint} {node : Json}
        (hfollow : c.follow reference = some (d, node)) :
        Accepts (followIn c.library hops) d.scope node v ↔ d.Admits node v := by
      rw [← library_follow hfollow]
      exact ih reference d node rfl hfollow (hreads.target hfollow) hv hhops
    have hadmits := eventually_iff (eventually_accepts_reference href hreads.reads fun d node hfollow =>
      (eventually_ge_atTop n).mono fun hops hhops => htarget hhops hfollow)
    obtain ⟨hops, rfl⟩ := Nat.exists_eq_add_of_le' (Nat.le_of_add_left_le hhops)
    rw [accepts_reference href hreads.reads]
    refine Iff.trans ?_ hadmits.symm
    exact exists₂_congr fun d node => and_congr_right fun hfollow => htarget (Nat.le_of_add_le_add_right hhops) hfollow

section Computation

/-- Every schema on the list that is a reference leads to one of a smaller rank, or nowhere. The others pose schemas on
the list of no greater rank. All are read in the same place. -/
def isRanked (c : Standpoint) (ranks : List (Json × Nat)) : Bool :=
  ranks.all fun (node, rank) =>
    match node with
    | .obj members =>
      match members.lookup "$ref" with
      | some target => 0 < rank && (target.text?.bind c.follow).all fun (d, other) =>
        d.base = c.base && d.draft = c.draft && ranks.any fun entry => entry.1 = other && entry.2 < rank
      | none => (c.inside members).base = c.base && (Json.posed members).all fun (_, part) =>
        ranks.any fun entry => entry.1 = part && entry.2 ≤ rank
    | _ => true

private theorem exists_of_any {ranks : List (Json × Nat)} {other : Json} (p : Nat → Prop) [DecidablePred p]
    (h : ranks.any fun entry => entry.1 = other && p entry.2) : ∃ r, (other, r) ∈ ranks ∧ p r := by
  obtain ⟨⟨known, r⟩, hmem, hknown⟩ := List.any_eq_true.mp h
  simp only [Bool.and_eq_true, decide_eq_true_eq] at hknown
  obtain ⟨rfl, hr⟩ := hknown
  exact ⟨r, hmem, hr⟩

theorem eq_of_follow {reference : String} {d : Standpoint} (h : c.follow reference = some (d, node))
    (hbase : d.base = c.base) (hdraft : d.draft = c.draft) : d = c := by
  have hlibrary := library_follow h
  cases d
  cases c
  simp_all

theorem inside_eq_self {members : List (String × Json)} (h : (c.inside members).base = c.base) :
    c.inside members = c := by
  have hlibrary := library_inside c members
  have hdraft := draft_inside c members
  generalize c.inside members = d at *
  cases d
  cases c
  simp_all

theorem within_of_isRanked {ranks : List (Json × Nat)} (h : c.isRanked ranks) (n : Nat) : ∀ {node : Json} {rank : Nat},
    (node, rank) ∈ ranks → rank ≤ n → ∀ v, Within n c node v := by
  induction n using Nat.strongRecOn with
  | _ n ih =>
    intro node
    induction node using Json.contents_induction with
    | _ node ihparts =>
      intro rank hnode hrank v
      cases node with
      | obj members =>
        have hentry := List.all_eq_true.mp h _ hnode
        dsimp only at hentry
        cases href : members.lookup "$ref" with
        | none =>
          simp only [href, Bool.and_eq_true, decide_eq_true_eq] at hentry
          obtain ⟨hbase, hposed⟩ := hentry
          refine .keywords href fun way part x hposes => ?_
          obtain ⟨r, hpart, hr⟩ := exists_of_any (· ≤ rank) (List.all_eq_true.mp hposed _ hposes.mem_posed)
          rw [inside_eq_self hbase]
          exact ihparts part hposes.mem_contents hpart (hr.trans hrank) x
        | some target =>
          simp only [href, Bool.and_eq_true, decide_eq_true_eq] at hentry
          obtain ⟨hpos, htarget⟩ := hentry
          obtain ⟨n, rfl⟩ := Nat.exists_eq_succ_of_ne_zero (Nat.ne_of_gt (hpos.trans_le hrank))
          refine .reference href fun reference d other htext hfollow => ?_
          subst htext
          have hleads : (Json.text? (.str reference)).bind c.follow = some (d, other) := hfollow
          simp only [hleads, Option.all_some, Bool.and_eq_true, decide_eq_true_eq] at htarget
          obtain ⟨⟨hbase, hdraft⟩, hother⟩ := htarget
          obtain rfl := eq_of_follow hfollow hbase hdraft
          obtain ⟨r, hmem, hr⟩ := exists_of_any (· < rank) hother
          exact ih n (Nat.lt_succ_self n) hmem (Nat.le_of_lt_succ (hr.trans_le hrank)) v
      | _ => exact .scalar rfl

/-- A schema on the list admits what it accepts when references are followed as often as its rank says. -/
theorem admits_of_isRanked {ranks : List (Json × Nat)} (h : c.isRanked ranks) {rank : Nat} (hmem : (node, rank) ∈ ranks)
    (hreads : c.IsReadable node) {v : Json} (hv : v.hasDistinctNames)
    (haccepts : Accepts (followIn c.library rank) c.scope node v) : c.Admits node v :=
  ((within_of_isRanked h rank hmem (Nat.le_refl _) v).accepts_iff hreads hv (Nat.le_refl _)).mp haccepts

/-- All that is come to from a schema on the list is on the list, and read in the same place. -/
theorem mem_of_reaches {ranks : List (Json × Nat)} (h : c.isRanked ranks) {rank : Nat} (hmem : (node, rank) ∈ ranks)
    {d : Standpoint} {other : Json} (hreaches : trail.Reaches c node d other) : d = c ∧ ∃ r, (other, r) ∈ ranks := by
  obtain ⟨found, hfound⟩ : ∃ found, found = (d, other) := ⟨_, rfl⟩
  rw [Trail.Reaches, ← hfound] at hreaches
  induction hreaches generalizing d other with
  | refl =>
    obtain ⟨rfl, rfl⟩ := Prod.mk.inj hfound
    exact ⟨rfl, rank, hmem⟩
  | @tail before after _ hstep ih =>
    subst hfound
    obtain ⟨from', node⟩ := before
    obtain ⟨rfl, r, hmem⟩ := ih rfl
    obtain ⟨v, x, hasks⟩ := hstep
    have hentry := List.all_eq_true.mp h _ hmem
    cases hasks with
    | part hnone hposes =>
      simp only [hnone, Bool.and_eq_true, decide_eq_true_eq] at hentry
      obtain ⟨r, hpart, _⟩ := exists_of_any (· ≤ r) (List.all_eq_true.mp hentry.2 _ hposes.mem_posed)
      exact ⟨inside_eq_self hentry.1, r, hpart⟩
    | @target _ _ members reference _ _ href hfollow =>
      have hleads : (Json.text? (.str reference)).bind from'.follow = some (d, other) := hfollow
      simp only [href, hleads, Option.all_some, Bool.and_eq_true, decide_eq_true_eq] at hentry
      obtain ⟨_, ⟨hbase, hdraft⟩, hother⟩ := hentry
      obtain ⟨r', hmem', _⟩ := exists_of_any (· < r) hother
      exact ⟨eq_of_follow hfollow hbase hdraft, r', hmem'⟩

end Computation

end Standpoint

variable {document v : Json}

theorem size_le_hopLimit (library : Library) (v : Json) : library.root.size < hopLimit library v := by
  have hgrows (drafts : List Draft) (n : Nat) :
      n ≤ drafts.foldl (fun n draft => n + (MetaSchema.document draft).size) n := by
    induction drafts generalizing n with
    | nil => exact Nat.le_refl n
    | cons draft rest ih => exact Nat.le_trans (Nat.le_add_right _ _) (ih _)
  have hsize : library.root.size < library.size + 1 := Nat.lt_succ_of_le (hgrows Draft.all _)
  have hfactor : 0 < (v.depth + 1) * Draft.all.length * (library.located.length + 1) :=
    Nat.mul_pos (Nat.mul_pos (Nat.succ_pos _) (by decide)) (Nat.succ_pos _)
  exact Nat.lt_of_lt_of_le hsize (Nat.le_mul_of_pos_left _ hfactor)

theorem check_eq {library : Library} {rule : Rule} (hlibrary : Library.ofDocument .seven document = .ok library)
    (hrule : library.rule .seven = .ok rule) (v : Json) :
    check document v = rule.findings (followIn library (hopLimit library v)) none v := by
  unfold check checkIn
  rw [hlibrary]
  dsimp only
  rw [hrule]

/-- Checks by a document end whose references do not go in circles. -/
theorem ends_of_isRanked (hinspect : Engine.inspect document = .ok ()) (hdocument : document.hasDistinctNames)
    {ranks : List (Json × Nat)} (h : (Standpoint.start document).isRanked ranks) {rank : Nat}
    (hmem : (document, rank) ∈ ranks) (hrank : rank ≤ document.size) (hv : v.hasDistinctNames) :
    checkInterpretation.ends document v := by
  have hwithin := Standpoint.within_of_isRanked h document.size hmem hrank v
  refine ⟨hwithin.isFinite, fun library rule hlibrary hrule hops hhops => ?_⟩
  obtain ⟨library', rule', hlibrary', hrule', hstart, hread⟩ := exists_start_of_inspect hinspect
  obtain rfl := Except.ok.inj (hlibrary.symm.trans hlibrary')
  obtain rfl := Except.ok.inj (hrule.symm.trans hrule')
  have hreadable : (Standpoint.start document).IsReadable document := isDraft7_check.reads_start hinspect hdocument
  have haccepts {hops : Nat} (hhops : hopLimit library v ≤ hops) :
      rule.findings (followIn library hops) none v = [] ↔ (Standpoint.start document).Admits document v := by
    obtain ⟨_, _, _, _, hroot⟩ := Library.exists_of_ofDocument hlibrary
    have hsize : document.size ≤ hops := by
      have hlimit := size_le_hopLimit library v
      rw [hroot] at hlimit hhops
      exact Nat.le_of_lt (hlimit.trans_le hhops)
    rw [← hwithin.accepts_iff hreadable hv hsize]
    have hlib : (Standpoint.start document).library = library := by rw [hstart]
    rw [hlib]
    constructor
    · exact fun hnone => ⟨rule, hread, hnone⟩
    · rintro ⟨other, hother, hnone⟩
      obtain rfl := Except.ok.inj (hread.symm.trans hother)
      exact hnone
  rw [check_eq hlibrary hrule, haccepts hhops, haccepts (Nat.le_refl _)]

section Flat

/-- The schema is a reference, or one stands in it. -/
def Json.mentionsReference (node : Json) : Bool := (node :: node.contents).any fun part => (part.get? "$ref").isSome

/-- All that stands in the document, where references lead to what mentions none. -/
def Json.flatRanks (document : Json) : List (Json × Nat) :=
  (document :: document.contents).map fun node => (node, if node.mentionsReference then 1 else 0)

theorem Json.mem_flatRanks (document : Json) : ∃ rank ≤ 1, (document, rank) ∈ document.flatRanks := by
  refine ⟨_, ?_, List.mem_cons_self⟩
  split <;> decide

theorem ends_of_isFlat (hinspect : Engine.inspect document = .ok ()) (hdocument : document.hasDistinctNames)
    (h : (Standpoint.start document).isRanked document.flatRanks) (hv : v.hasDistinctNames) :
    checkInterpretation.ends document v := by
  obtain ⟨rank, hrank, hmem⟩ := document.mem_flatRanks
  refine ends_of_isRanked hinspect hdocument h hmem (hrank.trans ?_) hv
  cases document <;> exact Nat.le_add_left 1 _

end Flat

section Certificates

variable {sheet : Json} {form : Json → Json}

/-- The reference leads to the form of what it names in the document, or to nothing if it names nothing. -/
def Standpoint.leadsBy (c : Standpoint) (document : Json) (form : Json → Json) (reference : String) : Bool :=
  match Place.target? document reference with
  | some target => (c.follow reference).any fun (_, node) => node = form target.node
  | none => (c.follow reference).isNone

/-- References in the sheet mean what they mean in the document and lead to no further ones. -/
def isCertified (document : Json) (form : Json → Json) (sheet : Json) : Bool :=
  (Standpoint.start sheet).isRanked sheet.flatRanks &&
    sheet.flatRanks.all fun (node, _) =>
      match node.get? "$ref" with
      | some (.str text) => (Standpoint.start sheet).leadsBy document form text
      | _ => true

variable (h : isCertified document form sheet)
include h

theorem ends_of_isCertified (hinspect : Engine.inspect sheet = .ok ()) (hsheet : sheet.hasDistinctNames)
    (hv : v.hasDistinctNames) : checkInterpretation.ends sheet v :=
  ends_of_isFlat hinspect hsheet (Bool.and_eq_true_iff.mp h).1 hv

theorem isFaithful_of_isCertified : checkInterpretation.IsFaithful document form (Standpoint.start sheet) sheet := by
  obtain ⟨hranked, hleads⟩ := Bool.and_eq_true_iff.mp h
  obtain ⟨_, _, hmem⟩ := sheet.mem_flatRanks
  have hreference {d : Standpoint} {members : List (String × Json)} {reference : String}
      (hreaches : checkInterpretation.Reaches (Standpoint.start sheet) sheet d (.obj members))
      (href : members.lookup "$ref" = some (.str reference)) :
      d = Standpoint.start sheet ∧ d.leadsBy document form reference := by
    obtain ⟨rfl, r, hnode⟩ := Standpoint.mem_of_reaches hranked hmem hreaches
    have hentry := List.all_eq_true.mp hleads _ hnode
    simp only [Json.get?, href] at hentry
    exact ⟨rfl, hentry⟩
  have hdraft : checkInterpretation.draft (Standpoint.start sheet) = .seven := isDraft7_check.draft_start sheet
  refine ⟨hdraft, fun {d members reference target} hreaches href htarget => ?_, fun hreaches href htarget => ?_⟩
  · obtain ⟨rfl, hby⟩ := hreference hreaches href
    rw [Standpoint.leadsBy, htarget] at hby
    obtain ⟨⟨e, node⟩, hfollow, hnode⟩ := (Option.any_eq_true _ _).mp hby
    obtain rfl := of_decide_eq_true hnode
    have hstep : checkInterpretation.Reaches (Standpoint.start sheet) sheet e (form target.node) :=
      hreaches.tail ⟨.null, .null, .target href hfollow⟩
    obtain ⟨rfl, _⟩ := Standpoint.mem_of_reaches hranked hmem hstep
    exact ⟨_, hfollow, hdraft⟩
  · obtain ⟨rfl, hby⟩ := hreference hreaches href
    rw [Standpoint.leadsBy, htarget] at hby
    exact Option.isNone_iff_eq_none.mp hby

end Certificates

end SchemaBound
