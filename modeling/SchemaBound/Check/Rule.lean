import SchemaBound.Check.Finding
import SchemaBound.Check.Format

/-! Schemas as rules: what each keyword demands, with the keywords it works together with. -/
namespace SchemaBound

mutual
/-- A schema as a demand on values. -/
inductive Rule where
  | anything
  | nothing
  /-- The rule of the schema at a location, which is of this draft unless it names another one. -/
  | reference (target : Url) (draft : Draft)
  | keywords (list : List Keyword)

/-- What one keyword demands. -/
inductive Keyword where
  | type (draft : Draft) (name : TypeName)
  | types (draft : Draft) (names : List TypeName)
  | enum (options : List Json)
  | const (value : Json)
  | limit (side : Bound) (exclusive : Bool) (bound : Number)
  | multipleOf (factor : Number)
  | size (measure : Measure) (side : Bound) (bound : Nat)
  | uniqueItems
  | contains (rule : Rule)
  | required (names : List String)
  | pattern (source : String) (pattern : Pattern)
  | format (name : String) (format : Format)
  /-- Text in base 64. -/
  | encoded
  /-- JSON text, which may be in base 64. -/
  | document (encoded : Bool)
  | allOf (rules : List Rule)
  | anyOf (rules : List Rule)
  | oneOf (rules : List Rule)
  | not (source : Json) (rule : Rule)
  /-- One rule for every item. -/
  | items (rule : Rule)
  /-- Rules for the items by position. -/
  | tuple (rules : List Rule)
  /-- A rule for the items after the first `count`. -/
  | furtherItems (count : Nat) (rule : Rule)
  /-- No items after the first `count`. -/
  | noFurtherItems (count : Nat)
  /-- Nothing at all, not even a value without items. -/
  | nothingFurther
  | properties (rules : List (String × Rule))
  | patternProperties (rules : List PatternRule)
  /-- Declared members, members by pattern, and a rule for the others, decided member by member; without
  such a rule the others are refused. -/
  | members (rules : List (String × Rule)) (patterns : List PatternRule) (others : Option Rule)
  /-- No members at all. -/
  | noMembers
  | propertyNames (rule : Rule)
  | noPropertyNames
  | dependencies (list : List (String × Dependency))
  | conditional (condition : Rule) (holds fails : Option Rule)

/-- A rule for the members whose name matches a pattern. -/
structure PatternRule where
  source : String
  pattern : Pattern
  rule : Rule

/-- What the presence of a member demands. -/
inductive Dependency where
  | names (list : List String)
  | rule (rule : Rule)
end

end SchemaBound
