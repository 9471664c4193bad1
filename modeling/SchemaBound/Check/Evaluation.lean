import SchemaBound.Check.Reading
import SchemaBound.Check.Reference
import SchemaBound.Json.Parser
import SchemaBound.Text.Base64

/-! Checking a value against a rule: every broken demand, in the order of the keywords. -/
namespace SchemaBound

/-- How a reference is checked: the location and the draft it asks for, the place in the schema that holds
it, if it has a name, and the value. -/
abbrev Follow := Url → Draft → Option String → Json → List Finding

def Binary64.Decimal.divides (factor x : Binary64.Decimal) : Bool :=
  let power := x.power - factor.power
  (x.digits * Nat.pow 10 power.toNat) % (factor.digits * Nat.pow 10 (-power).toNat) = 0

/-- Multiples of a factor other than zero. By a whole factor they are exact; otherwise the fraction of
the rounded quotient has to be below `2 ^ (-52)`, which holds of every negative one, and where the
quotient overflows the shortest decimals decide. -/
def Binary64.isMultipleOf (x factor : Binary64) : Bool :=
  if factor.isWhole then
    let (a, b) := x.magnitude
    let (c, d) := factor.magnitude
    x.isWhole && c != 0 && (a / b) % (c / d) = 0
  else match x.div factor with
    | some quotient =>
      let (num, den) := quotient.magnitude
      quotient.negative || (num % den) * Nat.pow 2 52 < den
    | none => (Binary64.shortest .toEven factor).divides (Binary64.shortest .toEven x)

/-- Equality with a constant. A number is equal to a constant number at a distance of less than
`2 ^ (-52)`. -/
def Json.matchesConst (expected v : Json) : Bool :=
  match expected, v with
  | .num c, .num x =>
    match c.toBinary64.distance x.toBinary64 with
    | some d => d.cmp ⟨false, Nat.pow 2 52, -104⟩ = .lt
    | none => false
  | _, _ => expected.sameValue v

/-- No two items are equal. Up to 15 items are compared as a schema compares them, more as they are stored,
with the members of objects in any order. -/
def Json.areUnique (items : List Json) : Bool :=
  let equal := if items.length ≤ 15 then Json.sameValue else Json.sameStored
  let rec distinct : List Json → Bool
    | [] => true
    | v :: rest => !rest.any (equal v) && distinct rest
  distinct items

/-- How much of a measure a value has; nothing for values of other types. -/
def Measure.of? : Measure → Json → Option Nat
  | .characters, .str s => some s.length
  | .items, .arr list => some list.length
  | .properties, .obj members => some members.length
  | _, _ => none

def Bound.isBroken (side : Bound) (size bound : Nat) : Bool :=
  match side with
  | .least => size < bound
  | .greatest => bound < size

/-- A number beyond the bound, or on an exclusive one. -/
def Bound.isBrokenBy (side : Bound) (exclusive : Bool) (n bound : Number) : Bool :=
  match side, n.cmp bound with
  | _, .eq => exclusive
  | .least, order => order = .lt
  | .greatest, order => order = .gt

def Bound.limitKeyword (side : Bound) (exclusive : Bool) : String :=
  match side, exclusive with
  | .least, false => "minimum"
  | .greatest, false => "maximum"
  | .least, true => "exclusiveMinimum"
  | .greatest, true => "exclusiveMaximum"

def Bound.sizeKeyword (side : Bound) (measure : Measure) : String :=
  match side, measure with
  | .least, .characters => "minLength"
  | .greatest, .characters => "maxLength"
  | .least, .items => "minItems"
  | .greatest, .items => "maxItems"
  | .least, .properties => "minProperties"
  | .greatest, .properties => "maxProperties"

/-- Names that an object lacks, as findings of a keyword. -/
def missingMembers (keyword : String) (members : List (String × Json)) (names : List String) : List Finding :=
  (names.filter fun name => (members.lookup name).isNone).map fun name => .fault keyword (.required name)

def isJsonText (text : String) : Bool := (Json.parse? text).isSome

/-- Text that has to be JSON, or to spell JSON in base 64. Bytes that are no text are a fault of their own. -/
def documentFindings (encoded : Bool) (v : Json) (text : String) : List Finding :=
  let refused : List Finding := [.fault "contentMediaType" (.contentMediaType v "application/json")]
  if encoded then
    match Text.Base64.decode? text.toList with
    | none => [.fault "contentEncoding" (.contentEncoding v "base64")]
    | some bytes =>
      match Text.Utf8.decode bytes with
      | .error why => [.misread [] (.utf8 why)]
      | .ok text => if isJsonText text then [] else refused
  else if isJsonText text then [] else refused

/-- Keywords that look at the value alone. Each applies to values of its own type. -/
def Keyword.ownFindings (keyword : Keyword) (v : Json) : List Finding :=
  let broken (name : String) (isBroken : Bool) (cause : Cause) : List Finding :=
    if isBroken then [.fault name cause] else []
  match keyword, v with
  | .type draft name, v => broken "type" (!name.admits draft v) (.type v name)
  | .types draft names, v => broken "type" (!names.any (·.admits draft v)) (.types v names)
  | .enum options, v => broken "enum" (!options.any (·.sameValue v)) (.enum v options)
  | .const expected, v => broken "const" (!expected.matchesConst v) (.const expected)
  | .limit side exclusive bound, .num n =>
    broken (side.limitKeyword exclusive) (side.isBrokenBy exclusive n bound) (.limit v side exclusive bound)
  | .multipleOf factor, .num n =>
    broken "multipleOf" (!n.toBinary64.isMultipleOf factor.toBinary64) (.multipleOf v factor)
  | .size measure side bound, v =>
    match measure.of? v with
    | some n => broken (side.sizeKeyword measure) (side.isBroken n bound) (.size v measure side bound)
    | none => []
  | .uniqueItems, .arr list => broken "uniqueItems" (!Json.areUnique list) (.notUnique v)
  | .required names, .obj object => missingMembers "required" object names
  | .pattern source p, .str s =>
    match p.search? s with
    | some found => broken "pattern" (!found) (.pattern v source)
    | none => [⟨.inValue [], none, .searchGivenUp⟩]
  | .format name f, .str s => broken "format" (!f.admits s) (.format v name)
  | .encoded, .str s =>
    broken "contentEncoding" (Text.Base64.decode? s.toList).isNone (.contentEncoding v "base64")
  | .document inBase64, .str s => documentFindings inBase64 v s
  | .noFurtherItems count, .arr list =>
    broken "additionalItems" (count < list.length) (.furtherItems (list.drop count))
  | .nothingFurther, v => [.fault "additionalItems" (.falseSchema v)]
  | .noMembers, .obj ((_, x) :: _) => [.fault "additionalProperties" (.falseSchema x)]
  | .noPropertyNames, .obj (_ :: _) => [.fault "propertyNames" (.falseSchema v)]
  | _, _ => []

/-- Findings for the items of an array, each by its position from `start` on. -/
def itemFindings (check : Json → List Finding) (start : Nat) : List Json → List Finding
  | [] => []
  | x :: rest => (check x).map (·.under (toString start)) ++ itemFindings check (start + 1) rest

mutual
/-- All broken demands of a rule. `seat` names the place of the rule in the schema. -/
def Rule.findings (follow : Follow) (seat : Option String) : Rule → Json → List Finding
  | .anything, _ => []
  | .nothing, v => [⟨.inValue [], seat, .falseSchema v⟩]
  | .reference target draft, v => follow target draft seat v
  | .keywords list, v => keywordFindings follow list v

/-- The findings of all keywords, one keyword after another. -/
def keywordFindings (follow : Follow) : List Keyword → Json → List Finding
  | [], _ => []
  | keyword :: rest, v => keyword.findings follow v ++ keywordFindings follow rest v

/-- All broken demands of a keyword. Those on members and items sit below the value. -/
def Keyword.findings (follow : Follow) : Keyword → Json → List Finding
  | .contains rule, .arr list =>
    if list.any fun x => (rule.findings follow (some "contains") x).isEmpty then []
    else [.fault "contains" (.contains (.arr list))]
  | .allOf rules, v => allFindings follow 0 rules v
  | .anyOf rules, v =>
    if acceptedBy follow rules v = 0 then [.fault "anyOf" (.noAlternative v "anyOf")] else []
  | .oneOf rules, v =>
    match acceptedBy follow rules v with
    | 0 => [.fault "oneOf" (.noAlternative v "oneOf")]
    | 1 => []
    | _ => [.fault "oneOf" (.manyAlternatives v)]
  | .not source rule, v =>
    if (rule.findings follow (some "not") v).isEmpty then [.fault "not" (.not v source)] else []
  | .items rule, .arr list => itemFindings (rule.findings follow (some "items")) 0 list
  | .tuple rules, .arr list => tupleFindings follow 0 rules list
  | .furtherItems count rule, .arr list =>
    itemFindings (rule.findings follow (some "additionalItems")) count (list.drop count)
  | .properties rules, .obj object => propertyFindings follow rules object
  | .patternProperties patterns, .obj object => patternFindings follow patterns object
  | .members rules patterns others, .obj object =>
    let undeclared := object.filter fun (name, _) =>
      !rules.any (·.1 = name) && !patterns.any fun | .mk _ pattern _ => pattern.occursIn name
    let refused := if others.isNone ∧ undeclared ≠ [] then
        [.fault "additionalProperties" (.furtherMembers (undeclared.map (·.1)))]
      else []
    object.flatMap (fun (name, x) =>
      (declaredFindings follow rules name x ++ matchingFindings follow patterns name x ++
        (if undeclared.any (·.1 = name) then optionalFindings follow "additionalProperties" others x
        else [])).map (·.under name)) ++ refused
  | .propertyNames rule, .obj object =>
    object.flatMap fun (name, _) =>
      (rule.findings follow (some "propertyNames") (.str name)).map (·.atContainer)
  | .dependencies list, .obj object => dependencyFindings follow list object
  | .conditional condition holds fails, v =>
    if (condition.findings follow (some "if") v).isEmpty then optionalFindings follow "then" holds v
    else optionalFindings follow "else" fails v
  | keyword, v => keyword.ownFindings v

/-- All demands of all rules; each sits at its index. -/
def allFindings (follow : Follow) (index : Nat) : List Rule → Json → List Finding
  | [], _ => []
  | rule :: rest, v => rule.findings follow (some (toString index)) v ++ allFindings follow (index + 1) rest v

def acceptedBy (follow : Follow) : List Rule → Json → Nat
  | [], _ => 0
  | rule :: rest, v => (if (rule.findings follow none v).isEmpty then 1 else 0) + acceptedBy follow rest v

/-- Items and rules position by position, as far as both go. -/
def tupleFindings (follow : Follow) (index : Nat) : List Rule → List Json → List Finding
  | rule :: rules, x :: items =>
    (rule.findings follow (some (toString index)) x).map (·.under (toString index)) ++
      tupleFindings follow (index + 1) rules items
  | _, _ => []

/-- No rule finds nothing. -/
def optionalFindings (follow : Follow) (seat : String) : Option Rule → Json → List Finding
  | none, _ => []
  | some rule, v => rule.findings follow (some seat) v

/-- Rules for present members, in the order of the rules. -/
def propertyFindings (follow : Follow) : List (String × Rule) → List (String × Json) → List Finding
  | [], _ => []
  | (name, rule) :: rest, members =>
    (match members.lookup name with
      | some x => (rule.findings follow (some (Pointer.escape name)) x).map (·.under name)
      | none => []) ++ propertyFindings follow rest members

def declaredFindings (follow : Follow) : List (String × Rule) → String → Json → List Finding
  | [], _, _ => []
  | (name, rule) :: rest, member, x =>
    if name = member then rule.findings follow (some (Pointer.escape name)) x
    else declaredFindings follow rest member x

/-- Pattern by pattern, the matching members in their order. -/
def patternFindings (follow : Follow) : List PatternRule → List (String × Json) → List Finding
  | [], _ => []
  | .mk source pattern rule :: rest, members =>
    members.flatMap (fun (name, x) =>
      if pattern.occursIn name then (rule.findings follow (some (Pointer.escape source)) x).map (·.under name)
      else []) ++
      patternFindings follow rest members

/-- The rules of all patterns that match one member. -/
def matchingFindings (follow : Follow) : List PatternRule → String → Json → List Finding
  | [], _, _ => []
  | .mk source pattern rule :: rest, member, x =>
    (if pattern.occursIn member then rule.findings follow (some (Pointer.escape source)) x else []) ++
      matchingFindings follow rest member x

/-- Demands that the presence of members makes on the whole object. -/
def dependencyFindings (follow : Follow) : List (String × Dependency) → List (String × Json) → List Finding
  | [], _ => []
  | (name, dependency) :: rest, members =>
    (if (members.lookup name).isNone then [] else dependentFindings follow name dependency members) ++
      dependencyFindings follow rest members

/-- What the presence of one member demands of the whole object. -/
def dependentFindings (follow : Follow) (name : String) : Dependency → List (String × Json) → List Finding
  | .names names, members => missingMembers "dependencies" members names
  | .rule rule, members => rule.findings follow (some (Pointer.escape name)) (.obj members)
end

/-- Checks references by reading the rule they address, at most `hops` in a row. -/
def followIn (library : Library) : Nat → Follow
  | 0, url, _, _, _ => [.misread [] (.endless url.toText)]
  | hops + 1, url, draft, seat, v =>
    match library.resolve draft url with
    | .error why => [.misread [] why]
    | .ok (node, location) =>
      match Rule.read (.ofDocument location ((Draft.named? node).getD draft)) node with
      | .error finding => [finding]
      | .ok rule => (rule.findings (followIn library hops) none v).map (·.through seat)

/-- More hops than any check takes that ends: on one level of the value it meets no part of a document twice
in one draft and one location. -/
def hopLimit (library : Library) (v : Json) : Nat :=
  (v.depth + 1) * Draft.all.length * (library.located.length + 1) * (library.size + 1)

/-- Reads the document of a library in a draft. -/
def Library.rule (library : Library) (draft : Draft) : Readable Rule :=
  Rule.read (.ofDocument library.location draft) library.root

/-- Everything that a schema document, read in a draft, finds wrong with a value. -/
def checkIn (draft : Draft) (document v : Json) : List Finding :=
  match Library.ofDocument draft document with
  | .error why => [.misread [] (.url why)]
  | .ok library =>
    match library.rule draft with
    | .error finding => [finding]
    | .ok rule => rule.findings (followIn library (hopLimit library v)) none v

/-- Everything a schema document finds wrong with a value. The document is of Draft 7, whatever it says. -/
def check (document v : Json) : List Finding := checkIn .seven document v

def accepts (document v : Json) : Bool := (check document v).isEmpty

/-- The reason to refuse a document as a schema: a location that is no URL, the first rule of schemas that it
breaks, or else a part that cannot be read. -/
def refusal? (document : Json) : Option Cause :=
  match Library.ofDocument .seven document with
  | .error why => some (.url why)
  | .ok library =>
    match check (.obj (MetaSchema.rules .seven)) document with
    | finding :: _ => some finding.cause
    | [] =>
      match library.rule .seven with
      | .error finding => some finding.cause
      | .ok _ => none

end SchemaBound
