import SchemaBound.Check.Rule
import SchemaBound.Check.Scope

/-! Reading schemas as rules. A schema that makes no sense is refused where one of its keywords needs the part
that makes none. -/
namespace SchemaBound

/-- What may be read, or what is wrong with it. -/
abbrev Readable (α : Type) := Except Finding α

/-- The value of a keyword with the schemas inside it read as rules. -/
inductive Part where
  | value (v : Json)
  | rule (source : Json) (rule : Readable Rule)
  | rules (count : Nat) (list : Readable (List Rule))
  | named (list : Readable (List (String × Rule)))
  | patterns (list : Readable (List PatternRule))
  | dependencies (list : Readable (List (String × Dependency)))

namespace Part

/-- The members of an object of schemas, which is empty where there is none. -/
def namedRules : Option Part → Readable (List (String × Rule))
  | none => .ok []
  | some (.named list) => list
  | some _ => .error (.misread [] .misshapen)

/-- The members of an object of schemas under patterns, which is empty where there is none. -/
def patternRules : Option Part → Readable (List PatternRule)
  | none => .ok []
  | some (.patterns list) => list
  | some _ => .error (.misread [] .misshapen)

/-- The schema under a keyword, if there is one. -/
def optionalRule : Option Part → Readable (Option Rule)
  | some (.rule _ readable) => readable.map some
  | _ => .ok none

/-- A schema that decides the members it covers one by one, `properties` and `patternProperties` included: an
object or `false` under `additionalProperties`. -/
def coversMembers : Option Part → Bool
  | some (.rule source _) => source.isObject || source = .bool false
  | _ => false

end Part

namespace Keyword

/-- The greatest size that a schema can ask for. -/
def maxSize : Nat := 0xffffffffffffffff

/-- The number of a keyword that bounds a size. Since Draft 6 a number without a fraction counts as the
nearest size. -/
def readSize (scope : Scope) (v : Json) : Readable Nat :=
  match v with
  | .num n =>
    let (num, den) := n.toRatio
    match scope.draft, n with
    | .four, .int k => if k < 0 then scope.fault (.limit v .least false (.int 0)) else .ok k.toNat
    | .four, .float _ => scope.fault (.type v .integer)
    | _, n => if n.isWhole then .ok (min (num / den).toNat maxSize) else scope.fault (.type v .integer)
  | v => scope.fault (.type v .integer)

def readNames (scope : Scope) : List Json → Readable (List String)
  | [] => .ok []
  | .str name :: rest => (readNames scope rest).map (name :: ·)
  | v :: _ => scope.fault (.type v .string)

def readTypes (scope : Scope) : List Json → Readable (List TypeName)
  | [] => .ok []
  | .str word :: rest =>
    match TypeName.ofWord? word with
    | some name => (readTypes scope rest).map (name :: ·)
    | none => scope.fault (.enum (.str word) (TypeName.all.map fun t => .str t.word))
  | v :: _ => scope.fault (.type v .string)

/-- The `type` keyword. A list of one name reads as the name. -/
def readType (scope : Scope) (v : Json) : Readable Keyword :=
  let single (word : String) : Readable Keyword :=
    match TypeName.ofWord? word with
    | some name => .ok (.type scope.draft name)
    | none => .error (.misread [] .misshapen)
  match v with
  | .str word | .arr [.str word] => single word
  | .arr list =>
    (readTypes (scope.under "type") list).map fun names =>
      .types scope.draft (TypeName.all.filter names.contains)
  | v => scope.fault (.types v [.array, .string])

def readNumber (scope : Scope) (v : Json) (keyword : Number → Keyword) : Readable (Option Keyword) :=
  match v with
  | .num n => .ok (some (keyword n))
  | v => scope.fault (.type v .number)

/-- A keyword whose value is a text, if the text means something. -/
def readText (scope : Scope) (v : Json) (keyword : String → Option Keyword) : Readable (Option Keyword) :=
  match v with
  | .str s => .ok (keyword s)
  | v => scope.fault (.type v .string)

/-- The kind of document that a text holds, which may be in the encoding that stands beside it. Only JSON and
base 64 are looked at. -/
def readContent (scope : Scope) (parts : List (String × Part)) (mediaType : Json) :
    Readable (Option Keyword) :=
  match mediaType with
  | .str "application/json" =>
    match parts.lookup "contentEncoding" with
    | none => .ok (some (.document false))
    | some (.value encoding) =>
      readText scope encoding fun name => if name = "base64" then some (.document true) else none
    | some _ => .ok none
  | v => readText scope v fun _ => none

/-- A keyword whose value holds no schemas. -/
def readValue (scope : Scope) (parts : List (String × Part)) (key : String) (v : Json) :
    Readable (Option Keyword) :=
  let size (measure : Measure) (side : Bound) : Readable (Option Keyword) :=
    (readSize (scope.under key) v).map fun n => some (.size measure side n)
  let isStrict (flag : String) : Bool :=
    match scope.draft, parts.lookup flag with
    | .four, some (.value flag) => flag = .bool true
    | _, _ => false
  match key with
  | "type" => (readType scope v).map some
  | "enum" =>
    match v with
    | .arr options => .ok (some (.enum options))
    | v => scope.fault (.type v .array)
  | "const" => .ok (some (.const v))
  | "minimum" => readNumber scope v (.limit .least (isStrict "exclusiveMinimum"))
  | "maximum" => readNumber scope v (.limit .greatest (isStrict "exclusiveMaximum"))
  | "exclusiveMinimum" => readNumber scope v (.limit .least true)
  | "exclusiveMaximum" => readNumber scope v (.limit .greatest true)
  | "multipleOf" => readNumber scope v .multipleOf
  | "minLength" => size .characters .least
  | "maxLength" => size .characters .greatest
  | "minItems" => size .items .least
  | "maxItems" => size .items .greatest
  | "minProperties" => size .properties .least
  | "maxProperties" => size .properties .greatest
  | "uniqueItems" =>
    match v with
    | .bool wanted => .ok (if wanted then some .uniqueItems else none)
    | v => scope.fault (.type v .boolean)
  | "required" =>
    match v with
    | .arr names => (readNames (scope.under key) names).map fun names => some (.required names)
    | v => (scope.under key).fault (.type v .array)
  | "pattern" =>
    match v with
    | .str source =>
      match Pattern.parseInSchema? source with
      | some p => .ok (some (.pattern source p))
      | none => scope.fault (.format v "regex")
    | v => scope.fault (.type v .string)
  | "format" => readText scope v fun name => (Format.ofName? scope.draft name).map (.format name)
  | "contentMediaType" => readContent scope parts v
  | "contentEncoding" =>
    if (parts.lookup "contentMediaType").isSome then .ok none
    else readText scope v fun name => if name = "base64" then some .encoded else none
  | "properties" | "patternProperties" =>
    if Part.coversMembers (parts.lookup "additionalProperties") then .ok none
    else .error (.misread [] .misshapen)
  | "allOf" | "anyOf" | "oneOf" => scope.fault (.type v .array)
  | "dependencies" => scope.fault (.type v .object)
  | _ => .ok none

/-- The demand of one member of a schema, if it makes one. `additionalProperties` takes over from
`properties` and `patternProperties` where it is more than `true`, `then` and `else` count with `if`,
and `additionalItems` counts beside a list of `items`, or beside `items` that are refused. -/
def readPart (scope : Scope) (parts : List (String × Part)) (key : String) (part : Part) :
    Readable (Option Keyword) :=
  let covered := Part.coversMembers (parts.lookup "additionalProperties")
  if !scope.draft.knows key then .ok none
  else match key, part with
  | key, .value v => readValue scope parts key v
  | "properties", .named readable =>
    if covered then .ok none else readable.map fun rules => some (.properties rules)
  | "patternProperties", .patterns readable =>
    if covered then .ok none else readable.map fun rules => some (.patternProperties rules)
  | "additionalProperties", .rule source readable => do
    let patterns ← Part.patternRules (parts.lookup "patternProperties")
    if source = .bool true then return none
    let rules ← Part.namedRules (parts.lookup "properties")
    if source ≠ .bool false then return some (.members rules patterns (some (← readable)))
    else if (parts.lookup "properties").isNone ∧ (parts.lookup "patternProperties").isNone then
      return some .noMembers
    else return some (.members rules patterns none)
  | "items", .rules _ readable => readable.map fun rules => some (.tuple rules)
  | "items", .rule source readable =>
    if source.isObject ∨ source = .bool false then readable.map fun rule => some (.items rule) else .ok none
  | "additionalItems", .rule source readable =>
    match parts.lookup "items" with
    | some (.rules count _) =>
      if source.isObject then readable.map fun rule => some (.furtherItems count rule)
      else .ok (if source = .bool false then some (.noFurtherItems count) else none)
    | some (.rule other _) => .ok (if other = .bool false then some .nothingFurther else none)
    | _ => .ok none
  | "contains", .rule _ readable => readable.map fun rule => some (.contains rule)
  | "not", .rule source readable => readable.map fun rule => some (.not source rule)
  | "if", .rule _ readable =>
    if (parts.lookup "then").isNone ∧ (parts.lookup "else").isNone then .ok none
    else do
      let condition ← readable
      let holds ← Part.optionalRule (parts.lookup "then")
      let fails ← Part.optionalRule (parts.lookup "else")
      return some (.conditional condition holds fails)
  | "allOf", .rules _ readable => readable.map fun rules => some (.allOf rules)
  | "anyOf", .rules _ readable => readable.map fun rules => some (.anyOf rules)
  | "oneOf", .rules _ readable => readable.map fun rules => some (.oneOf rules)
  | "propertyNames", .rule source readable =>
    if source.isObject then readable.map fun rule => some (.propertyNames rule)
    else .ok (if source = .bool false then some .noPropertyNames else none)
  | "dependencies", .dependencies readable => readable.map fun list => some (.dependencies list)
  | _, _ => .ok none

/-- The demands of all members, in their order. -/
def readParts (scope : Scope) (all : List (String × Part)) : List (String × Part) → Readable (List Keyword)
  | [] => .ok []
  | (key, part) :: rest => do
    let keyword ← readPart scope all key part
    let others ← readParts scope all rest
    return keyword.toList ++ others

end Keyword

namespace Rule

/-- The rule of what is no object. Only booleans have one. -/
def ofScalar (scope : Scope) : Json → Readable Rule
  | .bool true => .ok .anything
  | .bool false => .ok .nothing
  | v => scope.fault (.types v [.boolean, .object])

/-- The rule of an object: a reference replaces everything beside it, otherwise the keywords in member
order. `parts` gives the values of the keywords as they read in a scope. -/
def ofMembers (scope : Scope) (members : List (String × Json)) (parts : Scope → List (String × Part)) :
    Readable Rule :=
  match members.lookup "$ref" with
  | some (.str target) => (scope.locate target).map fun url => .reference url scope.draft
  | some v => scope.fault (.type v .string)
  | none => do
    let inner ← scope.inside (.obj members)
    let found := parts inner
    let list ← Keyword.readParts inner found found
    return .keywords list

def holdsRule (key : String) : Bool :=
  ["additionalItems", "additionalProperties", "contains", "else", "if", "items", "not", "propertyNames",
    "then"].contains key

mutual
def read (scope : Scope) : Json → Readable Rule
  | .obj members => ofMembers scope members fun inner => partsOf inner members
  | v => ofScalar scope v

def partsOf (scope : Scope) : List (String × Json) → List (String × Part)
  | [] => []
  | (key, v) :: rest => (key, partOf scope key v) :: partsOf scope rest

def partOf (scope : Scope) (key : String) : Json → Part
  | .obj members =>
    let inner := scope.under key
    match key with
    | "properties" => .named (namedOf inner members)
    | "patternProperties" => .patterns (patternsOf inner members)
    | "dependencies" => .dependencies (dependenciesOf inner members)
    | _ =>
      if holdsRule key then .rule (.obj members) (ofMembers inner members fun scope => partsOf scope members)
      else .value (.obj members)
  | .arr items =>
    match key with
    | "items" | "allOf" | "anyOf" | "oneOf" => .rules items.length (rulesOf (scope.under key) 0 items)
    | _ =>
      if holdsRule key then .rule (.arr items) (ofScalar (scope.under key) (.arr items))
      else .value (.arr items)
  | v => if holdsRule key then .rule v (ofScalar (scope.under key) v) else .value v

def namedOf (scope : Scope) : List (String × Json) → Readable (List (String × Rule))
  | [] => .ok []
  | (name, v) :: rest => do
    let rule ← read (scope.under name) v
    let others ← namedOf scope rest
    return (name, rule) :: others

def patternsOf (scope : Scope) : List (String × Json) → Readable (List PatternRule)
  | [] => .ok []
  | (source, v) :: rest => do
    match Pattern.parse? source with
    | some pattern =>
      let rule ← read (scope.under source) v
      let others ← patternsOf scope rest
      return ⟨source, pattern, rule⟩ :: others
    | none => scope.fault (.format v "regex")

def rulesOf (scope : Scope) (index : Nat) : List Json → Readable (List Rule)
  | [] => .ok []
  | v :: rest => do
    let rule ← read (scope.under (toString index)) v
    let others ← rulesOf scope (index + 1) rest
    return rule :: others

/-- A list of names is demanded as such, anything else is a rule for the whole object. -/
def dependenciesOf (scope : Scope) : List (String × Json) → Readable (List (String × Dependency))
  | [] => .ok []
  | (name, .arr names) :: rest => do
    let names ← Keyword.readNames scope names
    let others ← dependenciesOf scope rest
    return (name, .names names) :: others
  | (name, v) :: rest => do
    let rule ← read (scope.under name) v
    let others ← dependenciesOf scope rest
    return (name, .rule rule) :: others
end

end Rule
end SchemaBound
