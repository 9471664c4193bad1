import SchemaBound.Check.Reading
import SchemaBound.Proofs.Json.Names
import SchemaBound.Proofs.Success
import SchemaBound.Schema.Nesting

/-! The place of a schema in its document does not matter to how it is read, only to what is reported where it cannot
be read. -/
namespace SchemaBound

namespace Readable

variable {α β : Type}

theorem toOption_bind (x : Readable α) (f : α → Readable β) :
    (x >>= f).toOption = x.toOption.bind fun a => (f a).toOption := by
  cases x <;> rfl

theorem toOption_map (x : Readable α) (f : α → β) : (x.map f).toOption = x.toOption.map f := by
  cases x <;> rfl

/-- The same result, if there is one. -/
def plain (x : Readable α) : Readable α :=
  match x with
  | .ok a => .ok a
  | .error _ => .error (.misread [] .misshapen)

@[simp]
theorem toOption_plain (x : Readable α) : x.plain.toOption = x.toOption := by
  cases x <;> rfl

theorem plain_eq_of_toOption_eq {x y : Readable α} (h : x.toOption = y.toOption) : x.plain = y.plain := by
  cases x <;> cases y <;> simp_all [Except.toOption, plain]

end Readable

/-- The part without what is wrong with it. -/
def Part.plain : Part → Part
  | .value v => .value v
  | .rule source readable => .rule source readable.plain
  | .rules count list => .rules count list.plain
  | .named list => .named list.plain
  | .patterns list => .patterns list.plain
  | .dependencies list => .dependencies list.plain

/-- The parts without what is wrong with them. -/
def plainParts (parts : List (String × Part)) : List (String × Part) := parts.map fun part => (part.1, part.2.plain)

theorem lookup_plainParts (parts : List (String × Part)) (key : String) :
    (plainParts parts).lookup key = (parts.lookup key).map Part.plain := by
  induction parts with
  | nil => rfl
  | cons part rest ih =>
    obtain ⟨name, part⟩ := part
    rw [plainParts, List.map_cons, List.lookup_cons, List.lookup_cons]
    cases key == name with
    | true => rfl
    | false => exact ih

/-- The scope at the start of a document. -/
def Scope.home (scope : Scope) : Scope := { scope with place := [] }

@[simp]
theorem Scope.home_under (scope : Scope) (token : String) : (scope.under token).home = scope.home := rfl

@[simp]
theorem Scope.home_home (scope : Scope) : scope.home.home = scope.home := rfl

theorem Scope.toOption_inside (scope : Scope) (v : Json) :
    (scope.home.inside v).toOption = (scope.inside v).toOption.map Scope.home := by
  have hdraft : scope.home.draft = scope.draft := rfl
  rw [inside, inside, hdraft]
  cases scope.draft.idOf? v with
  | none => rfl
  | some id =>
    simp only [Readable.toOption_map, Option.map_map]
    rfl

namespace Part

variable (part? : Option Part)

theorem namedRules_plain : (namedRules (part?.map plain)).toOption = (namedRules part?).toOption := by
  cases part? with
  | none => rfl
  | some part => cases part <;> simp [namedRules, plain]

theorem patternRules_plain : (patternRules (part?.map plain)).toOption = (patternRules part?).toOption := by
  cases part? with
  | none => rfl
  | some part => cases part <;> simp [patternRules, plain]

theorem optionalRule_plain : (optionalRule (part?.map plain)).toOption = (optionalRule part?).toOption := by
  cases part? with
  | none => rfl
  | some part => cases part <;> simp [optionalRule, plain, Readable.toOption_map]

theorem coversMembers_plain : coversMembers (part?.map plain) = coversMembers part? := by
  cases part? with
  | none => rfl
  | some part => cases part <;> rfl

end Part

namespace Keyword

variable (scope scope' : Scope)

theorem readSize_toOption (hdraft : scope.draft = scope'.draft) (v : Json) :
    (readSize scope v).toOption = (readSize scope' v).toOption := by
  unfold readSize
  cases v with
  | num n =>
    dsimp only
    rw [hdraft]
    split
    · split <;> rfl
    · rfl
    · split <;> rfl
  | _ => rfl

theorem readNames_toOption (list : List Json) :
    (readNames scope list).toOption = (readNames scope' list).toOption := by
  induction list with
  | nil => rfl
  | cons v rest ih =>
    cases v with
    | str name => rw [readNames, readNames, Readable.toOption_map, Readable.toOption_map, ih]
    | _ => rfl

theorem readTypes_toOption (list : List Json) :
    (readTypes scope list).toOption = (readTypes scope' list).toOption := by
  induction list with
  | nil => rfl
  | cons v rest ih =>
    cases v with
    | str word =>
      rw [readTypes, readTypes]
      split
      · rw [Readable.toOption_map, Readable.toOption_map, ih]
      · rfl
    | _ => rfl

theorem readType_toOption (hdraft : scope.draft = scope'.draft) (v : Json) :
    (readType scope v).toOption = (readType scope' v).toOption := by
  unfold readType
  dsimp only
  rw [hdraft]
  split
  · split <;> rfl
  · split <;> rfl
  · rw [Readable.toOption_map, Readable.toOption_map, readTypes_toOption]
  · rfl

theorem readNumber_toOption (v : Json) (keyword : Number → Keyword) :
    (readNumber scope v keyword).toOption = (readNumber scope' v keyword).toOption := by
  unfold readNumber
  split <;> rfl

theorem readText_toOption (v : Json) (keyword : String → Option Keyword) :
    (readText scope v keyword).toOption = (readText scope' v keyword).toOption := by
  unfold readText
  split <;> rfl

/-- The same values stand beside a keyword, as far as it looks at them. -/
structure SharesValues (parts parts' : List (String × Part)) : Prop where
  value_iff : ∀ flag ∈ ["exclusiveMinimum", "exclusiveMaximum", "contentEncoding", "contentMediaType"], ∀ v,
    parts.lookup flag = some (.value v) ↔ parts'.lookup flag = some (.value v)
  isSome_eq : ∀ flag ∈ ["contentEncoding", "contentMediaType"], (parts.lookup flag).isSome = (parts'.lookup flag).isSome

theorem readContent_toOption {parts parts' : List (String × Part)} (h : SharesValues parts parts') (v : Json) :
    (readContent scope parts v).toOption = (readContent scope' parts' v).toOption := by
  unfold readContent
  have hvalue := h.value_iff "contentEncoding" (by decide)
  have hsome := h.isSome_eq "contentEncoding" (by decide)
  generalize parts.lookup "contentEncoding" = part, parts'.lookup "contentEncoding" = part' at hvalue hsome
  split
  · cases part with
    | none =>
      obtain rfl : part' = none := by simpa using hsome.symm
      rfl
    | some part =>
      cases part with
      | value encoding =>
        rw [(hvalue encoding).mp rfl]
        exact readText_toOption _ _ _ _
      | _ =>
        cases part' with
        | none => cases hsome
        | some part' =>
          cases part' with
          | value encoding => cases (hvalue encoding).mpr rfl
          | _ => rfl
  · exact readText_toOption _ _ _ _

/-- The flag of Draft 4 that takes a bound itself out. -/
private def isStrict (draft : Draft) (part? : Option Part) : Bool :=
  match draft, part? with
  | .four, some (.value flag) => flag = .bool true
  | _, _ => false

private theorem isStrict_eq (draft : Draft) {part part' : Option Part}
    (h : ∀ v, part = some (.value v) ↔ part' = some (.value v)) : isStrict draft part = isStrict draft part' := by
  by_cases hvalue : ∃ flag, part = some (.value flag)
  · obtain ⟨flag, rfl⟩ := hvalue
    rw [(h flag).mp rfl]
  · have hvalue' (flag : Json) : part' ≠ some (.value flag) := fun hflag => hvalue ⟨flag, (h flag).mpr hflag⟩
    unfold isStrict
    split
    · exact absurd ⟨_, rfl⟩ hvalue
    · split
      · exact absurd rfl (hvalue' _)
      · rfl

/-- What a value is read as depends on the draft and on the values beside it. -/
theorem readValue_toOption (hdraft : scope.draft = scope'.draft) {parts parts' : List (String × Part)}
    (h : SharesValues parts parts') (key : String) (hcovers : Nesting.ofKeyword key ≠ .data →
      Part.coversMembers (parts.lookup "additionalProperties") =
        Part.coversMembers (parts'.lookup "additionalProperties")) (v : Json) :
    (readValue scope parts key v).toOption = (readValue scope' parts' key v).toOption := by
  have hsize (measure : Measure) (side : Bound) :
      ((readSize (scope.under key) v).map fun n => some (Keyword.size measure side n)).toOption =
        ((readSize (scope'.under key) v).map fun n => some (Keyword.size measure side n)).toOption := by
    rw [Readable.toOption_map, Readable.toOption_map]
    exact congrArg (Option.map _) (readSize_toOption (scope.under key) (scope'.under key) hdraft v)
  have hnumber (keyword : Bool → Number → Keyword) {part part' : Option Part}
      (hpart : ∀ v, part = some (.value v) ↔ part' = some (.value v)) :
      (readNumber scope v (keyword (isStrict scope'.draft part))).toOption =
        (readNumber scope' v (keyword (isStrict scope'.draft part'))).toOption := by
    rw [isStrict_eq scope'.draft hpart]
    exact readNumber_toOption _ _ _ _
  unfold readValue
  dsimp only
  rw [hdraft]
  split
  · rw [Readable.toOption_map, Readable.toOption_map, readType_toOption scope scope' hdraft]
  · split <;> rfl
  · rfl
  · exact hnumber (.limit .least) (h.value_iff "exclusiveMinimum" (by decide))
  · exact hnumber (.limit .greatest) (h.value_iff "exclusiveMaximum" (by decide))
  · exact readNumber_toOption _ _ _ _
  · exact readNumber_toOption _ _ _ _
  · exact readNumber_toOption _ _ _ _
  · exact hsize _ _
  · exact hsize _ _
  · exact hsize _ _
  · exact hsize _ _
  · exact hsize _ _
  · exact hsize _ _
  · split <;> rfl
  · split
    · rw [Readable.toOption_map, Readable.toOption_map, readNames_toOption]
    · rfl
  · split
    · split <;> rfl
    · rfl
  · exact readText_toOption _ _ _ _
  · exact readContent_toOption scope scope' h v
  · rw [h.isSome_eq "contentMediaType" (by decide)]
    split
    · rfl
    · exact readText_toOption _ _ _ _
  · rw [hcovers (by decide)]
  · rw [hcovers (by decide)]
  · rfl
  · rfl
  · rfl
  · rfl
  · rfl

theorem sharesValues_plainParts (parts : List (String × Part)) : SharesValues (plainParts parts) parts := by
  constructor
  · intro flag _ v
    rw [lookup_plainParts]
    cases parts.lookup flag with
    | none => simp
    | some part => cases part <;> simp [Part.plain]
  · intro flag _
    rw [lookup_plainParts, Option.isSome_map]

theorem readValue_home (parts : List (String × Part)) (key : String) (v : Json) :
    (readValue scope.home (plainParts parts) key v).toOption = (readValue scope parts key v).toOption := by
  refine readValue_toOption scope.home scope rfl (sharesValues_plainParts parts) key (fun _ => ?_) v
  rw [lookup_plainParts, Part.coversMembers_plain]

-- every proof below takes keywords apart by these equations; here they are worked out once for all of them
attribute [local simp] readPart

/-- The keywords that ask for a part of this form. Those without schemas are read as values. -/
def askersOf : Part → List String
  | .value _ => []
  | .rule _ _ =>
    ["additionalProperties", "items", "additionalItems", "contains", "not", "if", "propertyNames"]
  | .rules _ _ => ["items", "allOf", "anyOf", "oneOf"]
  | .named _ => ["properties"]
  | .patterns _ => ["patternProperties"]
  | .dependencies _ => ["dependencies"]

theorem readPart_of_not_mem (scope : Scope) (parts : List (String × Part)) {key : String} {part : Part}
    (hvalue : ∀ v, part ≠ .value v) (hkey : key ∉ askersOf part) : readPart scope parts key part = .ok none := by
  unfold readPart
  split
  · rfl
  · split <;> first | rfl | simp_all [askersOf]

section Asked

variable {source : Json} {readable : Readable Rule} {parts : List (String × Part)}

private theorem additionalProperties_home :
    (readPart scope.home (plainParts parts) "additionalProperties" (.rule source readable.plain)).toOption =
      (readPart scope parts "additionalProperties" (.rule source readable)).toOption := by
  have hdraft : scope.home.draft = scope.draft := rfl
  simp only [readPart, hdraft, lookup_plainParts, Option.isNone_map]
  split
  · rfl
  · rw [Readable.toOption_bind, Readable.toOption_bind, Part.patternRules_plain]
    refine congrArg (Option.bind _) (funext fun patterns => ?_)
    split
    · rfl
    · rw [Readable.toOption_bind, Readable.toOption_bind, Part.namedRules_plain]
      refine congrArg (Option.bind _) (funext fun named => ?_)
      split
      · rw [Readable.toOption_bind, Readable.toOption_bind, Readable.toOption_plain]
      · rfl

private theorem additionalItems_home :
    (readPart scope.home (plainParts parts) "additionalItems" (.rule source readable.plain)).toOption =
      (readPart scope parts "additionalItems" (.rule source readable)).toOption := by
  have hdraft : scope.home.draft = scope.draft := rfl
  simp only [readPart, hdraft, lookup_plainParts]
  split
  · rfl
  · cases parts.lookup "items" with
    | none => rfl
    | some part =>
      cases part with
      | rules count list =>
        dsimp only [Option.map, Part.plain]
        split
        · rw [Readable.toOption_map, Readable.toOption_map, Readable.toOption_plain]
        · rfl
      | _ => rfl

private theorem if_home :
    (readPart scope.home (plainParts parts) "if" (.rule source readable.plain)).toOption =
      (readPart scope parts "if" (.rule source readable)).toOption := by
  have hdraft : scope.home.draft = scope.draft := rfl
  simp only [readPart, hdraft, lookup_plainParts, Option.isNone_map]
  split
  · rfl
  · split
    · rfl
    · simp only [Readable.toOption_bind, Readable.toOption_plain, Part.optionalRule_plain]

private theorem readPart_rule_home {key : String} (hkey : key ∈ askersOf (.rule source readable)) :
    (readPart scope.home (plainParts parts) key (.rule source readable.plain)).toOption =
      (readPart scope parts key (.rule source readable)).toOption := by
  have hdraft : scope.home.draft = scope.draft := rfl
  simp only [askersOf, List.mem_cons, List.not_mem_nil, or_false] at hkey
  rcases hkey with rfl | rfl | rfl | rfl | rfl | rfl | rfl
  · exact additionalProperties_home scope
  · simp only [readPart, hdraft]
    split
    · rfl
    · split
      · rw [Readable.toOption_map, Readable.toOption_map, Readable.toOption_plain]
      · rfl
  · exact additionalItems_home scope
  · simp only [readPart, hdraft]
    split
    · rfl
    · rw [Readable.toOption_map, Readable.toOption_map, Readable.toOption_plain]
  · simp only [readPart, hdraft]
    split
    · rfl
    · rw [Readable.toOption_map, Readable.toOption_map, Readable.toOption_plain]
  · exact if_home scope
  · simp only [readPart, hdraft]
    split
    · rfl
    · split
      · rw [Readable.toOption_map, Readable.toOption_map, Readable.toOption_plain]
      · rfl

end Asked

private theorem readPart_rules_home {parts : List (String × Part)} {count : Nat} {list : Readable (List Rule)}
    {key : String} (hkey : key ∈ askersOf (.rules count list)) :
    (readPart scope.home (plainParts parts) key (.rules count list.plain)).toOption =
      (readPart scope parts key (.rules count list)).toOption := by
  have hdraft : scope.home.draft = scope.draft := rfl
  simp only [askersOf, List.mem_cons, List.not_mem_nil, or_false] at hkey
  rcases hkey with rfl | rfl | rfl | rfl <;> simp only [readPart, hdraft] <;> split <;>
    first | rfl | rw [Readable.toOption_map, Readable.toOption_map, Readable.toOption_plain]

private theorem properties_home (parts : List (String × Part)) (list : Readable (List (String × Rule))) :
    (readPart scope.home (plainParts parts) "properties" (.named list.plain)).toOption =
      (readPart scope parts "properties" (.named list)).toOption := by
  have hdraft : scope.home.draft = scope.draft := rfl
  simp only [readPart, hdraft, lookup_plainParts, Part.coversMembers_plain]
  split
  · rfl
  · split
    · rfl
    · rw [Readable.toOption_map, Readable.toOption_map, Readable.toOption_plain]

private theorem patternProperties_home (parts : List (String × Part)) (list : Readable (List PatternRule)) :
    (readPart scope.home (plainParts parts) "patternProperties" (.patterns list.plain)).toOption =
      (readPart scope parts "patternProperties" (.patterns list)).toOption := by
  have hdraft : scope.home.draft = scope.draft := rfl
  simp only [readPart, hdraft, lookup_plainParts, Part.coversMembers_plain]
  split
  · rfl
  · split
    · rfl
    · rw [Readable.toOption_map, Readable.toOption_map, Readable.toOption_plain]

private theorem dependencies_home (parts : List (String × Part)) (list : Readable (List (String × Dependency))) :
    (readPart scope.home (plainParts parts) "dependencies" (.dependencies list.plain)).toOption =
      (readPart scope parts "dependencies" (.dependencies list)).toOption := by
  have hdraft : scope.home.draft = scope.draft := rfl
  simp only [readPart, hdraft]
  split
  · rfl
  · rw [Readable.toOption_map, Readable.toOption_map, Readable.toOption_plain]

private theorem readPart_asked_home (parts : List (String × Part)) {key : String} {part : Part}
    (hkey : key ∈ askersOf part) :
    (readPart scope.home (plainParts parts) key part.plain).toOption = (readPart scope parts key part).toOption := by
  cases part with
  | value v => cases hkey
  | rule source readable => exact readPart_rule_home scope hkey
  | rules count list => exact readPart_rules_home scope hkey
  | named list =>
    obtain rfl := List.mem_singleton.mp hkey
    exact properties_home scope parts list
  | patterns list =>
    obtain rfl := List.mem_singleton.mp hkey
    exact patternProperties_home scope parts list
  | dependencies list =>
    obtain rfl := List.mem_singleton.mp hkey
    exact dependencies_home scope parts list

/-- What a part is read as does not depend on what is wrong with other parts, nor on the place. -/
theorem readPart_home (parts : List (String × Part)) (key : String) (part : Part) :
    (readPart scope.home (plainParts parts) key part.plain).toOption = (readPart scope parts key part).toOption := by
  by_cases hvalue : ∃ v, part = .value v
  · obtain ⟨v, rfl⟩ := hvalue
    have hdraft : scope.home.draft = scope.draft := rfl
    unfold readPart
    rw [hdraft]
    split
    · rfl
    · exact readValue_home scope parts key v
  · by_cases hkey : key ∈ askersOf part
    · exact readPart_asked_home scope parts hkey
    · have haskers : askersOf part.plain = askersOf part := by cases part <;> rfl
      have hvalue' : ∀ v, part.plain ≠ .value v := by
        intro v hv
        cases part with
        | value v => exact hvalue ⟨v, rfl⟩
        | _ => cases hv
      rw [readPart_of_not_mem scope.home _ hvalue' (haskers ▸ hkey),
        readPart_of_not_mem scope parts (not_exists.mp hvalue) hkey]

theorem readParts_home (all parts : List (String × Part)) :
    (readParts scope.home (plainParts all) (plainParts parts)).toOption = (readParts scope all parts).toOption := by
  induction parts with
  | nil => rfl
  | cons part rest ih =>
    obtain ⟨key, part⟩ := part
    have hcons : plainParts ((key, part) :: rest) = (key, part.plain) :: plainParts rest := rfl
    rw [hcons, readParts, readParts]
    simp only [Readable.toOption_bind, readPart_home, ih]

end Keyword

namespace Rule

theorem ofScalar_toOption (scope scope' : Scope) (v : Json) :
    (ofScalar scope v).toOption = (ofScalar scope' v).toOption := by
  unfold ofScalar
  split <;> rfl

theorem ofMembers_home (scope : Scope) (members : List (String × Json)) {parts : Scope → List (String × Part)}
    (h : ∀ inner, plainParts (parts inner) = plainParts (parts inner.home)) :
    (ofMembers scope members parts).toOption = (ofMembers scope.home members parts).toOption := by
  unfold ofMembers
  cases members.lookup "$ref" with
  | some target =>
    cases target with
    | str reference => rfl
    | _ => rfl
  | none =>
    have hread (inner : Scope) : (Keyword.readParts inner (parts inner) (parts inner)).toOption =
        (Keyword.readParts inner.home (parts inner.home) (parts inner.home)).toOption := by
      rw [← Keyword.readParts_home, h inner]
      exact Keyword.readParts_home inner.home _ _
    simp only [Readable.toOption_bind, Scope.toOption_inside]
    cases (scope.inside (.obj members)).toOption with
    | none => rfl
    | some inner =>
      simp only [Option.map_some, Option.bind_some]
      rw [hread inner]

mutual
theorem read_home (scope : Scope) (v : Json) : (read scope v).toOption = (read scope.home v).toOption := by
  cases v with
  | obj members =>
    rw [read, read]
    exact ofMembers_home scope members fun inner => partsOf_home inner members
  | _ =>
    rw [read, read]
    · exact ofScalar_toOption _ _ _
    · nofun
    · nofun

theorem partsOf_home (scope : Scope) (members : List (String × Json)) :
    plainParts (partsOf scope members) = plainParts (partsOf scope.home members) := by
  cases members with
  | nil => rfl
  | cons member rest =>
    obtain ⟨key, v⟩ := member
    rw [partsOf, partsOf, plainParts, plainParts, List.map_cons, List.map_cons, partOf_home scope key v]
    exact congrArg _ (partsOf_home scope rest)

theorem partOf_home (scope : Scope) (key : String) (v : Json) :
    (partOf scope key v).plain = (partOf scope.home key v).plain := by
  cases v with
  | obj members =>
    have hnamed (key : String) :=
      (namedOf_home (scope.under key) members).trans (namedOf_home (scope.home.under key) members).symm
    have hpatterns (key : String) :=
      (patternsOf_home (scope.under key) members).trans (patternsOf_home (scope.home.under key) members).symm
    have hdependencies (key : String) :=
      (dependenciesOf_home (scope.under key) members).trans (dependenciesOf_home (scope.home.under key) members).symm
    have hmembers (key : String) :=
      (ofMembers_home (scope.under key) members fun inner => partsOf_home inner members).trans
        (ofMembers_home (scope.home.under key) members fun inner => partsOf_home inner members).symm
    unfold partOf
    dsimp only
    split
    · exact congrArg Part.named (Readable.plain_eq_of_toOption_eq (hnamed _))
    · exact congrArg Part.patterns (Readable.plain_eq_of_toOption_eq (hpatterns _))
    · exact congrArg Part.dependencies (Readable.plain_eq_of_toOption_eq (hdependencies _))
    · split
      · exact congrArg (Part.rule _) (Readable.plain_eq_of_toOption_eq (hmembers _))
      · rfl
  | arr items =>
    have hrules (key : String) :
        (rulesOf (scope.under key) 0 items).plain = (rulesOf (scope.home.under key) 0 items).plain :=
      Readable.plain_eq_of_toOption_eq
        ((rulesOf_home (scope.under key) 0 items).trans (rulesOf_home (scope.home.under key) 0 items).symm)
    unfold partOf
    split
    · exact congrArg (Part.rules _) (hrules _)
    · exact congrArg (Part.rules _) (hrules _)
    · exact congrArg (Part.rules _) (hrules _)
    · exact congrArg (Part.rules _) (hrules _)
    · split
      · exact congrArg (Part.rule _) (Readable.plain_eq_of_toOption_eq (ofScalar_toOption _ _ _))
      · rfl
  | _ =>
    unfold partOf
    split
    · exact congrArg (Part.rule _) (Readable.plain_eq_of_toOption_eq (ofScalar_toOption _ _ _))
    · rfl

theorem namedOf_home (scope : Scope) (members : List (String × Json)) :
    (namedOf scope members).toOption = (namedOf scope.home members).toOption := by
  cases members with
  | nil => rfl
  | cons member rest =>
    obtain ⟨name, v⟩ := member
    rw [namedOf, namedOf]
    simp only [Readable.toOption_bind]
    rw [read_home (scope.under name) v, read_home (scope.home.under name) v, namedOf_home scope rest]
    rfl

theorem patternsOf_home (scope : Scope) (members : List (String × Json)) :
    (patternsOf scope members).toOption = (patternsOf scope.home members).toOption := by
  cases members with
  | nil => rfl
  | cons member rest =>
    obtain ⟨source, v⟩ := member
    rw [patternsOf, patternsOf]
    cases Pattern.parse? source with
    | none => rfl
    | some pattern =>
      simp only [Readable.toOption_bind]
      rw [read_home (scope.under source) v, read_home (scope.home.under source) v, patternsOf_home scope rest]
      rfl

theorem rulesOf_home (scope : Scope) (index : Nat) (items : List Json) :
    (rulesOf scope index items).toOption = (rulesOf scope.home index items).toOption := by
  cases items with
  | nil => rfl
  | cons v rest =>
    rw [rulesOf, rulesOf]
    simp only [Readable.toOption_bind]
    rw [read_home (scope.under (toString index)) v, read_home (scope.home.under (toString index)) v,
      rulesOf_home scope (index + 1) rest]
    rfl

theorem dependenciesOf_home (scope : Scope) (members : List (String × Json)) :
    (dependenciesOf scope members).toOption = (dependenciesOf scope.home members).toOption := by
  cases members with
  | nil => rfl
  | cons member rest =>
    obtain ⟨name, v⟩ := member
    have hrest := dependenciesOf_home scope rest
    have hread := (read_home (scope.under name) v).trans (read_home (scope.home.under name) v).symm
    cases v with
    | arr names =>
      rw [dependenciesOf, dependenciesOf]
      simp only [Readable.toOption_bind]
      rw [Keyword.readNames_toOption scope scope.home, hrest]
    | _ =>
      rw [dependenciesOf, dependenciesOf]
      · simp only [Readable.toOption_bind]
        rw [hread, hrest]
      · nofun
      · nofun
end

/-- Schemas are read alike wherever references are relative to the same location and the draft is the same. -/
theorem read_eq_ok_iff {scope scope' : Scope} (hbase : scope.base = scope'.base) (hdraft : scope.draft = scope'.draft)
    {v : Json} {rule : Rule} : read scope v = .ok rule ↔ read scope' v = .ok rule := by
  have hhome : scope.home = scope'.home := by
    rw [Scope.home, Scope.home, hbase, hdraft]
  rw [← Success.toOption_eq_some, ← Success.toOption_eq_some, read_home scope, read_home scope', hhome]

theorem lookup_partsOf (scope : Scope) (members : List (String × Json)) (key : String) :
    (partsOf scope members).lookup key = (members.lookup key).map (partOf scope key) := by
  induction members with
  | nil => rfl
  | cons member rest ih =>
    obtain ⟨name, v⟩ := member
    rw [partsOf, List.lookup_cons, List.lookup_cons]
    by_cases hname : key = name
    · subst hname
      rw [beq_self_eq_true]
      rfl
    · rw [beq_eq_false_iff_ne.mpr hname]
      exact ih

end Rule
end SchemaBound
