import SchemaBound.Schema.Nesting

/-! Requirements of a schema: flags on single fields gathered into lists, and lists dropped. -/
namespace SchemaBound.Requirement

/-- A rule says of its own field that it is required. -/
def isFlagged (rule : Json) : Bool := rule.get? "required" = some (.bool true)

/-- Names under `properties` whose rule is flagged as required, in order. -/
def flaggedNames (members : List (String × Json)) : List String :=
  match members.lookup "properties" with
  | some (.obj rules) => (rules.filter fun rule => isFlagged rule.2).map (·.1)
  | _ => []

/-- A rule without its own flag. The last member takes the place of the flag. -/
def dropFlag (members : List (String × Json)) : List (String × Json) :=
  match members.lookup "required" with
  | some (.bool _) => Json.takeOut "required" members
  | _ => members

/-- Names that a list lacks go to its end. -/
def appendMissing (list : List Json) : List String → List Json
  | [] => list
  | name :: rest =>
    appendMissing (if Json.str name ∈ list then list else list ++ [Json.str name]) rest

/-- Adds names to the `required` list, making one if there is none. Any other value under that name
stays. -/
def require (names : List String) (members : List (String × Json)) : List (String × Json) :=
  if names = [] then members
  else match members.lookup "required" with
    | none => members ++ [("required", .arr (appendMissing [] names))]
    | some (.arr list) => Json.setMember "required" (.arr (appendMissing list names)) members
    | some _ => members

def hoistNesting (keyword : String) : Nesting :=
  if keyword = "propertyNames" ∨ keyword = "dependencies" then .data else .ofKeyword keyword

mutual
/-- Gathers the flags of the fields into the `required` list of the schema that declares them, at
every level. -/
def hoist : Json → Json
  | .obj members => .obj (require (flaggedNames members) (hoistMembers members))
  | v => v

/-- A rule under `properties` loses its own flag as well. -/
def hoistRule : Json → Json
  | .obj members => .obj (require (flaggedNames members) (dropFlag (hoistMembers members)))
  | v => v

/-- The members of a schema, each by its keyword. -/
def hoistMembers : List (String × Json) → List (String × Json)
  | [] => []
  | (keyword, v) :: rest => (keyword, hoistAt keyword v) :: hoistMembers rest

def hoistAt (keyword : String) : Json → Json
  | .obj members =>
    match hoistNesting keyword with
    | .byName => .obj (if keyword = "properties" then hoistRules members else hoistNamed members)
    | .listOrOne | .one => .obj (require (flaggedNames members) (hoistMembers members))
    | .dependencies | .data => .obj members
  | .arr items => if hoistNesting keyword = .listOrOne then .arr (hoistItems items) else .arr items
  | v => v

/-- The rules under `properties`. -/
def hoistRules : List (String × Json) → List (String × Json)
  | [] => []
  | (name, rule) :: rest => (name, hoistRule rule) :: hoistRules rest

def hoistNamed : List (String × Json) → List (String × Json)
  | [] => []
  | (name, node) :: rest => (name, hoist node) :: hoistNamed rest

def hoistItems : List Json → List Json
  | [] => []
  | node :: rest => hoist node :: hoistItems rest
end

mutual
/-- A schema without its `required` lists and without the name lists of `dependencies`, at every
level: members may be missing, those present are still checked. -/
def strip : Json → Json
  | .obj members => .obj (stripMembers members)
  | v => v

/-- The members of a schema, each by its keyword, without a `required` list. -/
def stripMembers : List (String × Json) → List (String × Json)
  | [] => []
  | (keyword, v) :: rest =>
    if keyword = "required" && v.isArray then stripMembers rest
    else (keyword, stripAt keyword v) :: stripMembers rest

def stripAt (keyword : String) : Json → Json
  | .obj members =>
    match Nesting.ofKeyword keyword with
    | .byName => .obj (stripNamed members)
    | .listOrOne | .one => .obj (stripMembers members)
    | .dependencies => .obj (stripDependencies members)
    | .data => .obj members
  | .arr items => if Nesting.ofKeyword keyword = .listOrOne then .arr (stripItems items) else .arr items
  | v => v

def stripNamed : List (String × Json) → List (String × Json)
  | [] => []
  | (name, node) :: rest => (name, strip node) :: stripNamed rest

/-- Dependencies that are no lists of names. -/
def stripDependencies : List (String × Json) → List (String × Json)
  | [] => []
  | (name, node) :: rest =>
    if node.isArray then stripDependencies rest else (name, strip node) :: stripDependencies rest

def stripItems : List Json → List Json
  | [] => []
  | node :: rest => strip node :: stripItems rest
end

end SchemaBound.Requirement
